import Mathlib
import LiveHighlight.Proofs.Draining
import LiveHighlight.Proofs.RegionsOfText

/-! Painting a range again. The rows that are painted are the fewest that hold the range and every
construct that shares a row with them; they get the styles of the whole text, and no other row
changes. -/

namespace LiveHighlight

namespace Extent

/-- The characters of whole rows are those from their start to their last line break. -/
theorem Aligned.between_iff {text : Text} {span : Span} (h : Aligned text span) {i : Nat}
    (hi : i ≤ text.length) : span.start ≤ i ∧ i ≤ span.stop ↔ OnRows text span i := by
  rw [h.rowStart.le_iff, h.rowEnd.le_iff hi, OnRows]

/-- Whole rows that hold a range of a text, and every row of each region that shares a row with
them. -/
structure Encloses (text : Text) (regions : List Region) (start stop : Nat) (span : Span) : Prop
    extends Aligned text span where
  start_on : OnRows text span start
  stop_on : OnRows text span stop
  whole : ∀ r ∈ regions, text.rowAt r.start ≤ text.rowAt span.stop →
    text.rowAt span.start ≤ text.rowAt (r.stop - 1) →
    OnRows text span r.start ∧ OnRows text span (r.stop - 1)

end Extent

namespace Relex

open Text Extent Constructs

section

variable {text : Text} {r : Region}

theorem fullRegions_start_lt (hr : r ∈ fullRegions text) : r.start < text.length := by
  rcases fullRegions_cases hr with hcloses | ⟨-, -, hopener, -⟩
  · exact Nat.lt_of_succ_lt hcloses.opener.lt_length
  · exact Nat.lt_of_succ_lt hopener.lt_length

/-- A region ends on the row of its last character: a closing delimiter is no line break, and there
is no row behind the end of the text. -/
theorem rowAt_fullRegions_stop (hr : r ∈ fullRegions text) :
    text.rowAt (r.stop - 1) = text.rowAt r.stop := by
  rcases fullRegions_cases hr with hcloses | ⟨-, hstop, -, -⟩
  · obtain ⟨k, hstop, -, -, hlast⟩ := hcloses.closer
    have hother : isBreak r.construct.closer.2 = false :=
      decide_eq_false r.construct.closer_ne_break.2
    have hrow := rowAt_succ hlast
    rw [if_neg (Bool.eq_false_iff.1 hother), Nat.add_zero] at hrow
    rw [hstop]
    exact hrow.symm
  · have hpast (k : Nat) : text.rowAt (text.length + k) = text.rowAt text.length := by
      rw [← rowAt_min_length, Nat.min_eq_right (Nat.le_add_right _ _)]
    rw [hstop]
    exact (hpast 1).trans (hpast Fragments.overhang).symm

/-- A region of a text shares a row with whole rows exactly if it meets them with their last line
break. -/
theorem meets_iff_rows {span : Span} (h : Aligned text span) (hr : r ∈ fullRegions text) :
    r.meets span.start (span.stop + 1) = true ↔
      text.rowAt r.start ≤ text.rowAt span.stop ∧
        text.rowAt span.start ≤ text.rowAt (r.stop - 1) := by
  have hpos := (apart_fullRegions text).start_lt_stop r hr
  rw [← h.rowEnd.le_iff (fullRegions_start_lt hr).le, ← h.rowStart.le_iff, Region.meets,
    Bool.and_eq_true, decide_eq_true_eq, decide_eq_true_eq, Nat.lt_succ_iff,
    Nat.le_sub_one_iff_lt (Nat.zero_lt_of_lt hpos)]

end

theorem encloses_iff {text : Text} {start stop : Nat} (hrange : start ≤ stop) {span : Span}
    (h : Aligned text span) :
    Encloses text (fullRegions text) start stop span ↔ (rowsOf text start stop).Within span ∧
      ∀ r ∈ fullRegions text, r.meets span.start (span.stop + 1) = true →
        (rowsOf text r.start r.stop).Within span := by
  have hrows {r : Region} (hr : r ∈ fullRegions text) :
      (rowsOf text r.start r.stop).Within span ↔
        OnRows text span r.start ∧ OnRows text span (r.stop - 1) := by
    have hpos := (apart_fullRegions text).start_lt_stop r hr
    rw [h.rowsOf_within_iff hpos.le, OnRows, OnRows, OnRows, rowAt_fullRegions_stop hr]
  rw [h.rowsOf_within_iff hrange]
  constructor
  · intro hencloses
    refine ⟨⟨hencloses.start_on, hencloses.stop_on⟩, ?_⟩
    intro r hr hmeets
    obtain ⟨hstart, hstop⟩ := (meets_iff_rows h hr).1 hmeets
    exact (hrows hr).2 (hencloses.whole r hr hstart hstop)
  · rintro ⟨⟨hstart, hstop⟩, hwhole⟩
    refine ⟨h, hstart, hstop, ?_⟩
    intro r hr habove hbelow
    exact (hrows hr).1 (hwhole r hr ((meets_iff_rows h hr).2 ⟨habove, hbelow⟩))

/-- The rows that a range of a text is painted with enclose it, and no fewer rows do. -/
theorem hull_least (text : Text) {start stop : Nat} (hrange : start ≤ stop) :
    Encloses text (fullRegions text) start stop
        (hull text (fullIndex text) (rowsOf text start stop)) ∧
      ∀ other, Encloses text (fullRegions text) start stop other →
        (hull text (fullIndex text) (rowsOf text start stop)).Within other := by
  obtain ⟨hwide, huncrossed⟩ := hull_full text hrange
  constructor
  · rw [encloses_iff hrange huncrossed.toAligned]
    exact ⟨⟨hwide.start_le, hwide.le_stop⟩, hwide.uncut⟩
  · intro other hother
    obtain ⟨hheld, hwhole⟩ := (encloses_iff hrange hother.toAligned).1 hother
    exact @hull_within text _ other (fullIndex text) (apart_fullRegions text) hheld hwhole

end Relex

namespace Highlighter

open Relex Extent Paint

theorem repaint_eq (reader : Reader LineLexer) (rules : StyleRules) (buffer : TextBuffer)
    (rows : RowBuckets) {start stop : Nat} (hrange : start ≤ stop) :
    let highlighter : Highlighter LineLexer := { toReader := reader, rules := rules }
    let span := hull buffer.text (fullIndex buffer.text) (rowsOf buffer.text start stop)
    let strokes := strokes rules buffer.text ⟨buffer.text.rowAt span.start,
      Scan.marked none (buffer.text.rowAt span.start) (spanRows buffer.text span)⟩
    highlighter.repaint buffer.text start stop ⟨rows, fullIndex buffer.text⟩ buffer =
      ⟨.ok (some (windowOf buffer.text span)),
        ⟨⟨buffer.text.rowAt span.start, []⟩, fullIndex buffer.text⟩, paint buffer strokes,
        { highlighter with toReader :=
          (reader.read (buffer.text.slice span.start span.stop)
            (buffer.text.rowAt span.start)).2 },
        .repainting (windowOf buffer.text span) :: (missed buffer strokes).map .staleSpan⟩ := by
  intro highlighter span strokes
  rw [repaint, whenEnabled, if_pos rfl, range_full reader buffer.text rows hrange]
  rfl

/-- Painting a range of a highlighted text again gives back the styles of the whole text on the
fewest rows that enclose the range, line breaks included, and changes neither another row nor a
region. -/
theorem repaint_restores_rows (reader full : Reader LineLexer) (rules : StyleRules)
    (buffer : TextBuffer) {known state : FileState}
    (hstate : state.regions = (entire full buffer.text known).state.regions) {start stop : Nat}
    (hrange : start ≤ stop) :
    let highlighter : Highlighter LineLexer := { toReader := reader, rules := rules }
    let painted := highlighter.repaint buffer.text start stop state buffer
    let whole := highlighter.highlightEntire buffer.text {} (.ofText buffer.text)
    ∃ span : Span,
      painted.result = .ok (some ⟨span.start, span.stop, buffer.text.rowAt span.start,
        buffer.text.rowAt span.stop, false⟩) ∧
      painted.state.regions = state.regions ∧ painted.state.rows.rows = [] ∧
      painted.buffer.text = buffer.text ∧
      Encloses buffer.text state.regions.toList start stop span ∧
      (∀ other, Encloses buffer.text state.regions.toList start stop other → span.Within other) ∧
      ∀ i < buffer.text.length, painted.buffer.styleAt i =
        if OnRows buffer.text span i then whole.buffer.styleAt i else buffer.styleAt i := by
  intro highlighter painted whole
  obtain ⟨rows, regions⟩ := state
  rw [entire_eq] at hstate
  obtain rfl : regions = fullIndex buffer.text := hstate
  have hpainted : painted = _ := repaint_eq reader rules buffer rows hrange
  have hwhole : whole = _ := @highlightEntire_eq highlighter rfl {} (.ofText buffer.text)
  obtain ⟨hencloses, hleast⟩ := hull_least buffer.text hrange
  obtain ⟨-, huncrossed⟩ := hull_full buffer.text hrange
  refine ⟨_, congrArg Painted.result hpainted, by rw [hpainted], by rw [hpainted], ?_,
    hencloses, hleast, ?_⟩
  · rw [hpainted]
    exact paint_text _ _
  · intro i hi
    have hstyle := paint_span rules huncrossed i
    rw [if_congr (huncrossed.toAligned.between_iff hi.le) rfl rfl] at hstyle
    rw [hpainted, hwhole]
    exact hstyle

/-- Two comments that share a row. A range on the first row takes in all three rows of them, and the
row below keeps its styles. -/
theorem repaint_restores_rows_chained :
    let stale : TextBuffer :=
      ⟨['~', ':', '\n', ':', '~', '~', ':', '\n', ':', '~', '\n', 'd'], List.replicate 12 .keyword,
        rfl⟩
    let reader : Reader LineLexer := { lexer := LineLexer.mk }
    let state := (entire reader stale.text {}).state
    let highlighter : Highlighter LineLexer := { toReader := reader, rules := .standard }
    let painted := highlighter.repaint stale.text 1 1 state stale
    painted.result = .ok (some ⟨0, 10, 0, 2, false⟩) ∧ painted.buffer.styleAt 9 = some .comment ∧
      painted.buffer.styleAt 10 = some .default ∧ painted.buffer.styleAt 11 = some .keyword := by
  intro stale reader state highlighter painted
  have hregions : state.regions = (entire reader stale.text {}).state.regions := rfl
  obtain ⟨⟨first, last⟩, hresult, -, -, -, -, -, hstyles⟩ :=
    repaint_restores_rows reader reader .standard stale hregions (Nat.le_refl 1)
  have hpainted : painted.result = .ok (some ⟨0, 10, 0, 2, false⟩) := by decide +kernel
  have hwindow := Option.some.inj (Except.ok.inj (hresult.symm.trans hpainted))
  simp only [Window.mk.injEq] at hwindow
  obtain ⟨rfl, rfl, -⟩ := hwindow
  refine ⟨hpainted, (hstyles 9 (by decide)).trans ?_, (hstyles 10 (by decide)).trans ?_,
    (hstyles 11 (by decide)).trans ?_⟩
  · decide +kernel
  · decide +kernel
  · decide +kernel

end Highlighter
end LiveHighlight
