import LiveHighlight.Region

/-! What can go wrong, with the words it is reported in. -/

namespace LiveHighlight

/-- A range that reaches past the end of a buffer. -/
structure BufferError where
  start : Nat
  stop : Nat
  length : Nat
  deriving DecidableEq, Repr

def BufferError.message (e : BufferError) : String :=
  "range " ++ toString e.start ++ ".." ++ toString e.stop ++
    " is outside the buffer (length " ++ toString e.length ++ ")"

/-- Tokens or regions that do not fit together. -/
inductive HighlightError where
  | unexpectedFragment (construct : Construct) (part : Part) (location : Location)
  | mismatchedMultiline (expected found : Construct) (location : Location)
  | missingOpeningToken (location : Location)
  | overlappingRegion (region existing : Region)
  | tokenOutsideWindow (location : Location) (startRow endRow : Nat)
  deriving DecidableEq, Repr

def HighlightError.message : HighlightError → String
  | .unexpectedFragment construct part location =>
    "unexpected " ++ part.name ++ " fragment of " ++ construct.name ++ " at " ++ location.display
  | .mismatchedMultiline expected found location =>
    "expected a " ++ expected.name ++ " fragment but found " ++ found.name ++ " at " ++
      location.display
  | .missingOpeningToken location =>
    "no opening token for the unclosed multi-line token at " ++ location.display
  | .overlappingRegion region existing =>
    "region " ++ region.display ++ " overlaps existing region " ++ existing.display
  | .tokenOutsideWindow location startRow endRow =>
    "token at " ++ location.display ++ " lies outside rows " ++ toString startRow ++ "..=" ++
      toString endRow

end LiveHighlight
