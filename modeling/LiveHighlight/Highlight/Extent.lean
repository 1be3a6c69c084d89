import LiveHighlight.Edit
import LiveHighlight.Region.Index

/-! How far a request has to look: whole rows, widened until no construct is cut. -/

namespace LiveHighlight.Extent

/-- A range of offsets. -/
structure Span where
  start : Nat
  stop : Nat
  deriving DecidableEq, Repr

/-- The smallest range that holds two others. -/
def Span.join (a b : Span) : Span := ⟨min a.start b.start, max a.stop b.stop⟩

/-- A range carried over an edit. -/
def Span.mapForward (span : Span) (edit : Edit) : Span :=
  ⟨edit.mapForward span.start, edit.mapForward span.stop⟩

/-- The rows that a range of offsets lies on. -/
def rowsOf (text : Text) (start stop : Nat) : Span := ⟨text.lineStart start, text.lineEnd stop⟩

/-- A span widened to the rows of each region, where `move` takes the region's offsets to offsets of
the text. -/
def cover (text : Text) (move : Nat → Nat) (span : Span) (regions : List Region) : Span :=
  regions.foldl (fun span r => span.join (rowsOf text (move r.start) (move r.stop))) span

/-- The rows an edit changed, with the row above if the edit is at the start of a row. -/
def edited (text : Text) (edit : Edit) : Span :=
  let offset := min edit.offset text.length
  let stop :=
    match edit.kind with
    | .insert => min (offset + edit.length) text.length
    | .remove => offset
  -- a break put in at column zero ends the row above
  let anchor := if offset > 0 ∧ text[offset - 1]? = some '\n' then offset - 1 else offset
  rowsOf text anchor stop

/-- Widens a span over the regions it meets and takes them out of the index, whose offsets are those
of the text before the edit. -/
def widen (text : Text) (edit : Edit) (span : Span) (regions : RegionIndex) : Span × RegionIndex :=
  let touched := regions.intersecting span.start (edit.mapBack span.stop)
  if _h : touched = [] then (span, regions)
  else
    widen text edit (cover text edit.mapForward span touched)
      (regions.removeIntersecting span.start (edit.mapBack span.stop))
termination_by regions.size
decreasing_by exact regions.size_removeIntersecting_lt _ _ _h

theorem cover_start_le (text : Text) (move : Nat → Nat) (span : Span) (regions : List Region) :
    (cover text move span regions).start ≤ span.start := by
  induction regions generalizing span with
  | nil => exact Nat.le_refl _
  | cons r rest ih => exact Nat.le_trans (ih _) (Nat.min_le_left _ _)

theorem le_cover_stop (text : Text) (move : Nat → Nat) (span : Span) (regions : List Region) :
    span.stop ≤ (cover text move span regions).stop := by
  induction regions generalizing span with
  | nil => exact Nat.le_refl _
  | cons r rest ih =>
    have h := ih (span.join (rowsOf text (move r.start) (move r.stop)))
    exact Nat.le_trans (Nat.le_max_left _ _) h

theorem cover_stop_le (text : Text) (move : Nat → Nat) (span : Span) (regions : List Region) :
    (cover text move span regions).stop ≤ max span.stop text.length := by
  induction regions generalizing span with
  | nil => exact Nat.le_max_left _ _
  | cons r rest ih =>
    refine Nat.le_trans (ih _) ?_
    have h := Text.lineEnd_le_length text (move r.stop)
    simp only [Span.join, rowsOf]
    omega

/-- Widens a span to every region it shares a row with. -/
def hull (text : Text) (regions : RegionIndex) (span : Span) : Span :=
  -- one offset further takes in the line break and nothing of the next row
  let wider := cover text id span (regions.intersecting span.start (span.stop + 1))
  if _h : wider = span then span else hull text regions wider
termination_by span.start + (text.length - span.stop)
decreasing_by
  have h1 := cover_start_le text id span (regions.intersecting span.start (span.stop + 1))
  have h2 := le_cover_stop text id span (regions.intersecting span.start (span.stop + 1))
  have h3 := cover_stop_le text id span (regions.intersecting span.start (span.stop + 1))
  have hne : wider.start ≠ span.start ∨ wider.stop ≠ span.stop := by
    rcases Nat.decEq wider.start span.start with hs | hs
    · exact .inl hs
    · refine .inr fun he => _h ?_
      cases hw : wider
      cases span
      simp_all
  simp only [wider] at hne ⊢
  omega

end LiveHighlight.Extent
