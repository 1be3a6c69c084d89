import LiveHighlight.Error

/-! Tokens by row: one bucket for each row of a window, blank rows included. -/

namespace LiveHighlight

structure RowBuckets where
  startRow : Nat := 0
  rows : List (List Token) := []
  deriving DecidableEq, Repr

namespace RowBuckets

/-- Valid and invalid tokens in reading order. With no invalid token the order stays as it is. -/
def merge (tokens invalid : List Token) : List Token :=
  if invalid = [] then tokens
  else (tokens ++ invalid).mergeSort fun a b => a.location.le b.location

/-- Puts a token in front of the bucket of its row. -/
def push (startRow : Nat) (token : Token) (rows : List (List Token)) : List (List Token) :=
  rows.modify (token.location.row - startRow) (token :: ·)

/-- Buckets for the rows from `startRow` to `endRow`. A window of one row takes every token,
whatever its row is. -/
def ofTokens (tokens invalid : List Token) (startRow endRow : Nat) :
    Except HighlightError RowBuckets :=
  let all := merge tokens invalid
  if endRow ≤ startRow then .ok ⟨startRow, [all]⟩
  else
    match all.find? fun t => t.location.row < startRow || endRow < t.location.row with
    | some stray => .error (.tokenOutsideWindow stray.location startRow endRow)
    | none => .ok ⟨startRow, all.foldr (push startRow) (.replicate (endRow - startRow + 1) [])⟩

/-- The last row with a bucket. Without buckets it is the first row. -/
def endRow (buckets : RowBuckets) : Nat := buckets.startRow + (buckets.rows.length - 1)

/-- The buckets with their row numbers. -/
def numbered (buckets : RowBuckets) : List (List Token × Nat) :=
  buckets.rows.zipIdx buckets.startRow

/-- The last tokens of the rows that have one, last row first. -/
def tails (buckets : RowBuckets) : List Token := buckets.rows.reverse.filterMap List.getLast?

def lastToken (buckets : RowBuckets) : Option Token := buckets.tails.head?

/-- Where the construct opens that is unclosed after these rows. An opening fragment ends its row,
so only the ends of rows are looked at. -/
def unclosedOpening (buckets : RowBuckets) : Except HighlightError Location :=
  match buckets.tails.find? (·.opens.isSome) with
  | some token => .ok token.location
  | none => .error (.missingOpeningToken ((buckets.lastToken.map (·.location)).getD ⟨0, 0⟩))

/-- Moves the tokens of the first row to the right. -/
def indentFirst (buckets : RowBuckets) (columns : Nat) : RowBuckets :=
  match buckets.rows with
  | [] => buckets
  | first :: rest => { buckets with rows := first.map (·.indent columns) :: rest }

/-- Replaces all that stands at a location or after it. What stands before it on the same row is
kept, and the first row of the new tail joins it. -/
def splice (buckets : RowBuckets) (origin : Location) (tail : RowBuckets) : RowBuckets :=
  if origin.row < buckets.startRow then tail
  else
    let index := origin.row - buckets.startRow
    let above := buckets.rows.take index ++ .replicate (index - buckets.rows.length) []
    let kept := (buckets.rows.getD index []).filter (·.location.column < origin.column)
    { buckets with rows := above ++ (kept ++ tail.rows.headD []) :: tail.rows.tail }

/-- Drops the buckets and keeps the row they started at. -/
def clear (buckets : RowBuckets) : RowBuckets := { buckets with rows := [] }

end RowBuckets
end LiveHighlight
