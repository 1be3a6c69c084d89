import Mathlib
import LiveHighlight.Highlight.Extent
import LiveHighlight.Proofs.RegionOrder
import LiveHighlight.Proofs.TextRows

/-! How far a request looks. Widening ends at whole rows that cut no region: a region that overlaps
the rows lies on them. -/

namespace LiveHighlight

namespace Edit

/-- Where the text that an edit put in ends. -/
def reach (edit : Edit) : Nat :=
  match edit.kind with
  | .insert => edit.offset + edit.length
  | .remove => edit.offset

theorem mapBack_mono (edit : Edit) {a b : Nat} (h : a ≤ b) : edit.mapBack a ≤ edit.mapBack b := by
  unfold mapBack
  split <;> omega

theorem mapForward_mono (edit : Edit) {a b : Nat} (h : a ≤ b) :
    edit.mapForward a ≤ edit.mapForward b := by
  unfold mapForward
  cases hkind : edit.kind <;> simp only <;> split_ifs <;> omega

theorem outside_of_mapForward (edit : Edit) {a b i : Nat}
    (h : edit.mapForward i < edit.mapForward a ∨ edit.mapForward b < edit.mapForward i) :
    i < a ∨ b < i := by
  by_contra hin
  have ha := edit.mapForward_mono (a := a) (b := i) (by omega)
  have hb := edit.mapForward_mono (a := i) (b := b) (by omega)
  omega

theorem mapForward_of_lt (edit : Edit) {a : Nat} (h : a < edit.offset) : edit.mapForward a = a :=
  if_pos h

theorem le_mapBack (edit : Edit) {s e : Nat} (hs : s ≤ edit.offset) (hse : s ≤ e) :
    s ≤ edit.mapBack e := by
  unfold mapBack
  split <;> omega

theorem mapBack_sub (edit : Edit) {e i : Nat} (he : edit.reach ≤ e) (hi : e ≤ i) :
    edit.mapBack i - edit.mapBack e = i - e ∧ edit.mapBack e ≤ edit.mapBack i := by
  unfold reach at he
  unfold mapBack
  cases hkind : edit.kind <;> simp only [hkind] at he ⊢ <;> omega

theorem mapForward_mapBack (edit : Edit) {i : Nat} (hi : edit.reach ≤ i) :
    edit.mapForward (edit.mapBack i) = i := by
  unfold reach at hi
  unfold mapForward mapBack
  split_ifs <;> cases hkind : edit.kind <;> simp only [hkind] at * <;> omega

theorem lt_mapForward (edit : Edit) {a b : Nat} (h : edit.mapBack a < b) (hle : edit.reach ≤ a) :
    a < edit.mapForward b := by
  unfold mapBack at h
  unfold reach at hle
  unfold mapForward
  split_ifs <;> cases hkind : edit.kind <;> simp only [hkind] at h hle ⊢ <;> omega

end Edit

namespace Extent

open Text

theorem cover_rowStart {text : Text} (move : Nat → Nat) {span : Span} (regions : List Region)
    (h : text.RowStart span.start) : text.RowStart (cover text move span regions).start := by
  induction regions generalizing span with
  | nil => exact h
  | cons r rest ih =>
    apply ih
    simp only [Span.join, rowsOf]
    rcases Nat.le_total span.start (text.lineStart (move r.start)) with hle | hle
    · rwa [Nat.min_eq_left hle]
    · rw [Nat.min_eq_right hle]
      exact rowStart_lineStart text _

theorem cover_rowEnd {text : Text} (move : Nat → Nat) {span : Span} (regions : List Region)
    (h : text.RowEnd span.stop) : text.RowEnd (cover text move span regions).stop := by
  induction regions generalizing span with
  | nil => exact h
  | cons r rest ih =>
    apply ih
    simp only [Span.join, rowsOf]
    rcases Nat.le_total span.stop (text.lineEnd (move r.stop)) with hle | hle
    · rw [Nat.max_eq_right hle]
      exact rowEnd_lineEnd text _
    · rwa [Nat.max_eq_left hle]

theorem cover_of_mem (text : Text) (move : Nat → Nat) (span : Span) {regions : List Region}
    {r : Region} (hr : r ∈ regions) :
    (cover text move span regions).start ≤ text.lineStart (move r.start) ∧
      text.lineEnd (move r.stop) ≤ (cover text move span regions).stop := by
  induction regions generalizing span with
  | nil => simp at hr
  | cons a rest ih =>
    rcases List.mem_cons.1 hr with rfl | hr
    · have hstart := cover_start_le text move
        (span.join (rowsOf text (move r.start) (move r.stop))) rest
      have hstop := le_cover_stop text move
        (span.join (rowsOf text (move r.start) (move r.stop))) rest
      exact ⟨hstart.trans (Nat.min_le_right _ _), (Nat.le_max_right _ _).trans hstop⟩
    · exact ih _ hr

theorem meets_mono {r : Region} {start stop start' stop' : Nat} (hstart : start' ≤ start)
    (hstop : stop ≤ stop') (h : r.meets start stop = true) : r.meets start' stop' = true := by
  simp only [Region.meets, Bool.and_eq_true, decide_eq_true_eq] at h ⊢
  omega

/-- A span of whole rows. -/
structure Aligned (text : Text) (span : Span) : Prop where
  rowStart : text.RowStart span.start
  rowEnd : text.RowEnd span.stop
  start_le_stop : span.start ≤ span.stop

/-- Rows of a text that cut no region and hold a span, and what is left of an index without the
regions on them. -/
structure Widened (text : Text) (edit : Edit) (span : Span) (regions : RegionIndex)
    (wide : Span) (left : RegionIndex) : Prop where
  rowStart : text.RowStart wide.start
  rowEnd : text.RowEnd wide.stop
  start_le : wide.start ≤ span.start
  le_stop : span.stop ≤ wide.stop
  left_eq : left.toList = regions.toList.filter (!·.meets wide.start (edit.mapBack wide.stop))
  uncut : ∀ r ∈ regions.toList, r.meets wide.start (edit.mapBack wide.stop) = true →
    wide.start ≤ text.lineStart (edit.mapForward r.start) ∧
      text.lineEnd (edit.mapForward r.stop) ≤ wide.stop

theorem widen_spec {text : Text} (edit : Edit) {span : Span} {regions : RegionIndex}
    (hapart : Apart regions.toList) (hstart : text.RowStart span.start)
    (hend : text.RowEnd span.stop) :
    Widened text edit span regions (widen text edit span regions).1
      (widen text edit span regions).2 := by
  fun_induction widen text edit span regions with
  | case1 span regions touched hnone =>
    have hmeets : ∀ r ∈ regions.toList, r.meets span.start (edit.mapBack span.stop) = false := by
      intro r hr
      by_contra h
      have hmem := (RegionIndex.mem_intersecting hapart).2 ⟨hr, Bool.eq_true_of_not_eq_false h⟩
      rw [show regions.intersecting span.start (edit.mapBack span.stop) = [] from hnone] at hmem
      simp at hmem
    refine ⟨hstart, hend, Nat.le_refl _, Nat.le_refl _, ?_, fun r hr h => ?_⟩
    · exact (List.filter_eq_self.2 fun r hr => by simp [hmeets r hr]).symm
    · simp [hmeets r hr] at h
  | case2 span regions touched hsome ih =>
    have hrest := RegionIndex.removeIntersecting_toList hapart span.start (edit.mapBack span.stop)
    have hwide := ih (hrest ▸ hapart.sublist List.filter_sublist)
      (cover_rowStart edit.mapForward touched hstart) (cover_rowEnd edit.mapForward touched hend)
    generalize widen text edit (cover text edit.mapForward span touched)
      (regions.removeIntersecting span.start (edit.mapBack span.stop)) = wide at hwide
    have hcoverStart := cover_start_le text edit.mapForward span touched
    have hcoverStop := le_cover_stop text edit.mapForward span touched
    have hgrow {r : Region} (h : r.meets span.start (edit.mapBack span.stop) = true) :
        r.meets wide.1.start (edit.mapBack wide.1.stop) = true :=
      meets_mono (hwide.start_le.trans hcoverStart)
        (edit.mapBack_mono (hcoverStop.trans hwide.le_stop)) h
    refine ⟨hwide.rowStart, hwide.rowEnd, hwide.start_le.trans hcoverStart,
      hcoverStop.trans hwide.le_stop, ?_, fun r hr h => ?_⟩
    · -- what overlaps the narrow span overlaps the wide one too
      rw [hwide.left_eq, hrest, List.filter_filter]
      refine List.filter_congr fun r _ => ?_
      cases hnarrow : r.meets span.start (edit.mapBack span.stop) with
      | false => simp
      | true => simp [hgrow hnarrow]
    · cases hnarrow : r.meets span.start (edit.mapBack span.stop) with
      | false =>
        refine hwide.uncut r ?_ h
        rw [hrest]
        exact List.mem_filter.2 ⟨hr, by simp [hnarrow]⟩
      | true =>
        have hcover := cover_of_mem text edit.mapForward span
          ((RegionIndex.mem_intersecting hapart).2 ⟨hr, hnarrow⟩)
        exact ⟨hwide.start_le.trans hcover.1, hcover.2.trans hwide.le_stop⟩

theorem edited_spec (text : Text) (edit : Edit) :
    text.RowStart (edited text edit).start ∧ text.RowEnd (edited text edit).stop ∧
      (edited text edit).start ≤ edit.offset ∧
      (edited text edit).start ≤ (edited text edit).stop ∧
      (edit.reach ≤ text.length → edit.reach ≤ (edited text edit).stop) := by
  unfold edited
  dsimp only
  -- the edit may have joined its row with the one above
  generalize hanchor : (if min edit.offset text.length > 0 ∧
    text[min edit.offset text.length - 1]? = some '\n' then min edit.offset text.length - 1
    else min edit.offset text.length) = anchor
  have hle : anchor ≤ min edit.offset text.length := by
    rw [← hanchor]
    split_ifs <;> omega
  have hstart := lineStart_le text anchor
  refine ⟨rowStart_lineStart text _, rowEnd_lineEnd text _, ?_, ?_, fun hreach => ?_⟩
  · simp only [rowsOf]
    omega
  · cases hkind : edit.kind with
    | insert =>
      have hstop := le_lineEnd text (min (min edit.offset text.length + edit.length) text.length)
      simp only [rowsOf]
      omega
    | remove =>
      have hstop := le_lineEnd text (min edit.offset text.length)
      simp only [rowsOf]
      omega
  · unfold Edit.reach at hreach ⊢
    cases hkind : edit.kind with
    | insert =>
      have hstop := le_lineEnd text (min (min edit.offset text.length + edit.length) text.length)
      simp only [hkind, rowsOf] at hreach ⊢
      omega
    | remove =>
      have hstop := le_lineEnd text (min edit.offset text.length)
      simp only [hkind, rowsOf] at hreach ⊢
      omega

/-- Rows of a text that hold a span and cut no region of it. -/
structure Uncut (text : Text) (regions : List Region) (span wide : Span) : Prop where
  rowStart : text.RowStart wide.start
  rowEnd : text.RowEnd wide.stop
  start_le : wide.start ≤ span.start
  le_stop : span.stop ≤ wide.stop
  uncut : ∀ r ∈ regions, r.meets wide.start (wide.stop + 1) = true →
    wide.start ≤ text.lineStart r.start ∧ text.lineEnd r.stop ≤ wide.stop

theorem hull_spec {text : Text} {regions : RegionIndex} (hapart : Apart regions.toList)
    {span : Span} (hstart : text.RowStart span.start) (hend : text.RowEnd span.stop) :
    Uncut text regions.toList span (hull text regions span) := by
  fun_induction hull text regions span with
  | case1 span wider hsame =>
    refine ⟨hstart, hend, Nat.le_refl _, Nat.le_refl _, fun r hr h => ?_⟩
    have hcover := cover_of_mem text id span ((RegionIndex.mem_intersecting hapart).2 ⟨hr, h⟩)
    rwa [show cover text id span (regions.intersecting span.start (span.stop + 1)) = span
      from hsame] at hcover
  | case2 span wider _ ih =>
    have hwide := ih (cover_rowStart id _ hstart) (cover_rowEnd id _ hend)
    exact ⟨hwide.rowStart, hwide.rowEnd, hwide.start_le.trans (cover_start_le text id span _),
      (le_cover_stop text id span _).trans hwide.le_stop, hwide.uncut⟩

/-- A span that lies in another one. -/
def Span.Within (inner outer : Span) : Prop :=
  outer.start ≤ inner.start ∧ inner.stop ≤ outer.stop

theorem cover_within {text : Text} {move : Nat → Nat} {span wide : Span} {regions : List Region}
    (hspan : span.Within wide)
    (h : ∀ r ∈ regions, (rowsOf text (move r.start) (move r.stop)).Within wide) :
    (cover text move span regions).Within wide := by
  induction regions generalizing span with
  | nil => exact hspan
  | cons r rest ih =>
    have hr := h r List.mem_cons_self
    apply ih
    · exact ⟨Nat.le_min.2 ⟨hspan.1, hr.1⟩, Nat.max_le.2 ⟨hspan.2, hr.2⟩⟩
    · exact fun s hs => h s (List.mem_cons_of_mem _ hs)

/-- Widening goes no further than rows that hold the span and cut no region. -/
theorem widen_within {text : Text} {edit : Edit} {span wide : Span} {regions : RegionIndex}
    (hapart : Apart regions.toList) (hspan : span.Within wide)
    (huncut : ∀ r ∈ regions.toList, r.meets wide.start (edit.mapBack wide.stop) = true →
      (rowsOf text (edit.mapForward r.start) (edit.mapForward r.stop)).Within wide) :
    (widen text edit span regions).1.Within wide := by
  fun_induction widen text edit span regions with
  | case1 span regions touched hnone => exact hspan
  | case2 span regions touched hsome ih =>
    have hrest := RegionIndex.removeIntersecting_toList hapart span.start (edit.mapBack span.stop)
    apply ih
    · rw [hrest]
      exact hapart.sublist List.filter_sublist
    · -- what the rows meet so far, the wide rows meet too, so they hold its rows
      refine cover_within hspan fun r hr => ?_
      obtain ⟨hmem, hmeets⟩ := (RegionIndex.mem_intersecting hapart).1 hr
      exact huncut r hmem (meets_mono hspan.1 (edit.mapBack_mono hspan.2) hmeets)
    · intro r hr
      rw [hrest] at hr
      exact huncut r (List.mem_filter.1 hr).1

theorem hull_within {text : Text} {span wide : Span} {regions : RegionIndex}
    (hapart : Apart regions.toList) (hspan : span.Within wide)
    (huncut : ∀ r ∈ regions.toList, r.meets wide.start (wide.stop + 1) = true →
      (rowsOf text r.start r.stop).Within wide) :
    (hull text regions span).Within wide := by
  fun_induction hull text regions span with
  | case1 span wider hsame => exact hspan
  | case2 span wider hwider ih =>
    apply ih
    refine cover_within hspan fun r hr => ?_
    obtain ⟨hmem, hmeets⟩ := (RegionIndex.mem_intersecting hapart).1 hr
    exact huncut r hmem (meets_mono hspan.1 (Nat.succ_le_succ hspan.2) hmeets)

/-- An offset on one of the rows of a span. -/
def OnRows (text : Text) (span : Span) (offset : Nat) : Prop :=
  text.rowAt span.start ≤ text.rowAt offset ∧ text.rowAt offset ≤ text.rowAt span.stop

instance (text : Text) (span : Span) (offset : Nat) : Decidable (OnRows text span offset) :=
  inferInstanceAs (Decidable (_ ∧ _))

theorem Aligned.rowsOf_within_iff {text : Text} {span : Span} (h : Aligned text span) {a b : Nat}
    (hab : a ≤ b) :
    (rowsOf text a b).Within span ↔ OnRows text span a ∧ OnRows text span b := by
  have hrows := text.rowAt_mono hab
  rw [Span.Within, rowsOf, h.rowStart.le_lineStart_iff, h.rowEnd.lineEnd_le_iff, OnRows, OnRows]
  omega

end Extent
end LiveHighlight
