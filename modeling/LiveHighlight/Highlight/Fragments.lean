import LiveHighlight.Region.Index
import LiveHighlight.Rows

/-! Regions from fragments. The fragments of lexed rows, read in order, open constructs, carry them
over rows and close them; each one that opens and closes is a region. -/

namespace LiveHighlight.Fragments

/-- A fragment with the offsets it takes up in the text. -/
structure Placed where
  construct : Construct
  part : Part
  start : Nat
  stop : Nat
  location : Location
  deriving DecidableEq, Repr

def place (rowStart : Nat) (token : Token) : Option Placed :=
  token.fragment.map fun (construct, part) =>
    let start := rowStart + token.location.column
    ⟨construct, part, start, start + token.length, token.location⟩

/-- The fragments among the tokens of the rows, in row order. -/
def ofRows (text : Text) (buckets : RowBuckets) : List Placed :=
  buckets.numbered.flatMap fun (tokens, row) => tokens.filterMap (place (text.rowStart row))

/-- A construct that was opened at an offset and is not closed yet. -/
structure Unclosed where
  start : Nat
  construct : Construct
  deriving DecidableEq, Repr

/-- An index together with how the work on it ended. After a failure it is as far as it got. -/
structure Derived (α : Type) where
  result : Except HighlightError α
  regions : RegionIndex

/-- Adds a region for each construct that opens and closes, and tells which one is left open. -/
def derive : (pending : Option Unclosed) → List Placed → RegionIndex → Derived (Option Unclosed)
  | pending, [], regions => ⟨.ok pending, regions⟩
  | none, f :: rest, regions =>
    match f.part with
    | .opening => derive (some ⟨f.start, f.construct⟩) rest regions
    | .middle | .closing => ⟨.error (.unexpectedFragment f.construct f.part f.location), regions⟩
  | some u, f :: rest, regions =>
    if u.construct ≠ f.construct then
      ⟨.error (.mismatchedMultiline u.construct f.construct f.location), regions⟩
    else
      match f.part with
      | .opening => ⟨.error (.unexpectedFragment f.construct f.part f.location), regions⟩
      | .middle => derive (some u) rest regions
      | .closing =>
        match regions.insert ⟨u.start, f.stop, u.construct⟩ with
        | .ok regions => derive none rest regions
        | .error e => ⟨.error e, regions⟩

/-- How far past the end of the text the region of an unclosed construct reaches, so that edits at
the very end still meet it. -/
def overhang : Nat := 2

/-- Adds the region of a construct that is unclosed at the end of the text. -/
def leaveOpen (text : Text) (u : Unclosed) (regions : RegionIndex) : Derived Unit :=
  match regions.insert ⟨u.start, text.length + overhang, u.construct⟩ with
  | .ok regions => ⟨.ok (), regions⟩
  | .error e => ⟨.error e, regions⟩

/-- Adds the regions of rows that run to the end of the text. -/
def deriveToEnd (text : Text) (buckets : RowBuckets) (regions : RegionIndex) : Derived Unit :=
  let derived := derive none (ofRows text buckets) regions
  match derived.result with
  | .error e => ⟨.error e, derived.regions⟩
  | .ok none => ⟨.ok (), derived.regions⟩
  | .ok (some u) => leaveOpen text u derived.regions

end LiveHighlight.Fragments
