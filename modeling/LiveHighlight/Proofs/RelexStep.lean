import Mathlib
import LiveHighlight.Proofs.EditSite

/-! One edit of a text whose regions are known. Lexing the rows of the edit gives what lexing the
new text as a whole would give: the same regions, the same rows in the window, and outside of it
rows that have not changed. -/

namespace LiveHighlight

/-- An edit makes a new text of an old one. -/
inductive Edit.Applies : Edit → Text → Text → Prop
  | insert {old : Text} {offset : Nat} (typed : Text) (h : offset ≤ old.length) :
    Applies ⟨offset, typed.length, .insert⟩ old (old.take offset ++ typed ++ old.drop offset)
  | remove {old : Text} {offset length : Nat} (h : offset + length ≤ old.length) :
    Applies ⟨offset, length, .remove⟩ old (old.take offset ++ old.drop (offset + length))

namespace Edit.Applies

variable {edit : Edit} {old new : Text}

theorem reach_le (h : edit.Applies old new) : edit.reach ≤ new.length := by
  cases h with
  | insert typed h =>
    simp [reach]
    omega
  | remove h =>
    simp [reach]
    omega

theorem take_eq (h : edit.Applies old new) {s : Nat} (hs : s ≤ edit.offset) :
    new.take s = old.take s := by
  cases h with
  | insert typed h =>
    rw [List.append_assoc, List.take_append_of_le_length (by simpa using ⟨hs, hs.trans h⟩),
      List.take_take, Nat.min_eq_left hs]
  | remove h =>
    have hs' : s ≤ old.length := hs.trans ((Nat.le_add_right _ _).trans h)
    rw [List.take_append_of_le_length (by simpa using ⟨hs, hs'⟩), List.take_take,
      Nat.min_eq_left hs]

theorem drop_eq (h : edit.Applies old new) {e : Nat} (he : edit.reach ≤ e) :
    new.drop e = old.drop (edit.mapBack e) := by
  cases h with
  | @insert _ offset typed h =>
    have hback : mapBack ⟨offset, typed.length, .insert⟩ e =
        offset + (e - (offset + typed.length)) := by
      simp only [reach, mapBack] at he ⊢
      omega
    rw [hback, List.drop_append, List.drop_eq_nil_of_le (by simp [reach] at he ⊢; omega),
      List.nil_append, List.drop_drop]
    congr 1
    simp [reach] at he ⊢
    omega
  | @remove _ offset length h =>
    have hback : mapBack ⟨offset, length, .remove⟩ e = offset + length + (e - offset) := by
      simp only [reach, mapBack] at he ⊢
      omega
    rw [hback, List.drop_append, List.drop_eq_nil_of_le (by simp [reach] at he ⊢; omega),
      List.nil_append, List.drop_drop]
    congr 1
    simp [reach] at he ⊢
    omega

theorem mapBack_le (h : edit.Applies old new) {e : Nat} (he : e ≤ new.length) :
    edit.mapBack e ≤ old.length := by
  cases h with
  | insert typed h =>
    simp [mapBack] at he ⊢
    omega
  | remove h =>
    simp [mapBack] at he ⊢
    omega

theorem mapBack_lt_iff (h : edit.Applies old new) {e : Nat} (hreach : edit.reach ≤ e)
    (he : e ≤ new.length) : edit.mapBack e < old.length ↔ e < new.length := by
  have hrest := congrArg List.length (h.drop_eq hreach)
  have hback := h.mapBack_le he
  rw [List.length_drop, List.length_drop] at hrest
  omega

theorem rowStart (h : edit.Applies old new) {s : Nat} (hs : s ≤ edit.offset)
    (hstart : new.RowStart s) : old.RowStart s := by
  rcases hstart with rfl | ⟨hpos, hbreak⟩
  · exact .inl rfl
  · refine .inr ⟨hpos, ?_⟩
    have hsame := congrArg (·[s - 1]?) (h.take_eq hs)
    simp only [List.getElem?_take, show s - 1 < s by omega, if_true] at hsame
    rw [← hsame, hbreak]

theorem rowEnd (h : edit.Applies old new) {e : Nat} (he : edit.reach ≤ e) (hend : new.RowEnd e) :
    old.RowEnd (edit.mapBack e) := by
  have hiff := h.mapBack_lt_iff he hend.le_length
  have hback := h.mapBack_le hend.le_length
  rcases hend with hlast | hbreak
  · exact .inl (by omega)
  · refine .inr ?_
    have hsame := congrArg (·[0]?) (h.drop_eq he)
    simp only [List.getElem?_drop, Nat.add_zero] at hsame
    rw [← hsame, hbreak]

theorem aligned (h : edit.Applies old new) {span : Extent.Span} (hspan : Extent.Aligned new span)
    (hoffset : span.start ≤ edit.offset) (hreach : edit.reach ≤ span.stop) :
    Extent.Aligned old ⟨span.start, edit.mapBack span.stop⟩ :=
  ⟨h.rowStart hoffset hspan.rowStart, h.rowEnd hreach hspan.rowEnd,
    edit.le_mapBack hoffset hspan.start_le_stop⟩

theorem above_eq (h : edit.Applies old new) {s : Nat} (hs : s ≤ edit.offset) :
    new.above s = old.above s := by
  cases s with
  | zero => rfl
  | succ s => rw [Text.above, Text.above, h.take_eq (Nat.le_of_succ_le hs)]

theorem below_eq (h : edit.Applies old new) {e : Nat} (hreach : edit.reach ≤ e)
    (he : e ≤ new.length) : new.below e = old.below (edit.mapBack e) := by
  have hiff := h.mapBack_lt_iff hreach he
  have hrest : new.drop (e + 1) = old.drop (edit.mapBack e + 1) := by
    rw [← List.drop_drop, h.drop_eq hreach, List.drop_drop]
  unfold Text.below
  rw [hrest]
  simp only [hiff]

theorem length_le (h : edit.Applies old new) : edit.length ≤ max old.length new.length := by
  cases h with
  | insert typed h => simp; omega
  | remove h => dsimp only; omega

theorem mapBack_add_delta (h : edit.Applies old new) (hlength : edit.length < 2 ^ 63) {e : Nat}
    (he : edit.reach ≤ e) : (edit.mapBack e : Int) + edit.delta = e := by
  have hdelta := delta_eq hlength
  cases h with
  | insert typed h =>
    simp only [reach, mapBack] at he hdelta ⊢
    omega
  | remove h =>
    simp only [reach, mapBack] at he hdelta ⊢
    omega

theorem length_add_delta (h : edit.Applies old new) (hlength : edit.length < 2 ^ 63) :
    (old.length : Int) + edit.delta = new.length := by
  have hdelta := delta_eq hlength
  cases h with
  | insert typed h =>
    simp at hdelta ⊢
    omega
  | remove h =>
    simp at hdelta ⊢
    omega

end Edit.Applies

/-- A text that a memory can hold: its length, and what its regions reach past its end, is a signed
word of 64 bits. -/
def Text.Fits (text : Text) : Prop := text.length + Fragments.overhang < 2 ^ 63

instance (text : Text) : Decidable text.Fits :=
  inferInstanceAs (Decidable (text.length + Fragments.overhang < 2 ^ 63))

namespace Scan

/-- Rows that are numbered from another row on differ by their numbers only. -/
theorem getElem?_marked_onRow (before : Option Construct) (row row' : Nat) (rows : List Text)
    (i : Nat) :
    (marked before row' rows)[i]? =
      (marked before row rows)[i]?.map (·.map (·.onRow (row' + i))) := by
  induction rows generalizing before row row' i with
  | nil => simp [marked, lines]
  | cons text rows ih =>
    rw [marked_cons, marked_cons]
    cases i with
    | zero =>
      simp only [List.getElem?_cons_zero, Option.map_some, Nat.add_zero]
      rw [line_onRow before row row', markRow_onRow]
    | succ i =>
      rw [List.getElem?_cons_succ, List.getElem?_cons_succ, ih _ (row + 1) (row' + 1),
        Nat.add_right_comm, Nat.add_assoc]

end Scan

namespace Relex

open Text Fragments Constructs Extent

/-- Whole rows that no construct crosses: none is open above them, nor below them. -/
structure Uncrossed (text : Text) (span : Span) : Prop extends Aligned text span where
  above : unclosed none 0 (text.above span.start) = none
  below : span.stop < text.length → spanOpen text span = none

theorem fullRegions_stop_le {text : Text} {r : Region} (hr : r ∈ fullRegions text) :
    r.stop ≤ text.length + overhang := by
  rcases List.mem_append.1 hr with hr | hr
  · have hlt := closed_stop_lt (above_none 0) hr
    rw [width_lines] at hlt
    omega
  · obtain ⟨u, -, rfl⟩ := List.mem_map.1 hr
    rw [width_lines]
    dsimp only
    omega

section

variable {text : Text} {span : Span}

theorem fullRegions_eq (hspan : Aligned text span) :
    fullRegions text = closed none 0 (text.above span.start) ++
      regions (unclosed none 0 (text.above span.start)) span.start
        (spanRows text span ++ text.below span.stop) := by
  have h := regions_append none 0 (text.above span.start)
    (spanRows text span ++ text.below span.stop)
  rw [width_above hspan.rowStart, Nat.zero_add, ← List.append_assoc,
    ← lines_eq_spanRows hspan] at h
  exact h

/-- Rows that cut no region of the text are not crossed by a construct. -/
theorem uncrossed_of_uncut (hspan : Aligned text span)
    (hleft : ∀ r ∈ fullRegions text, r.start < span.start → r.stop ≤ span.start)
    (hright : span.stop < text.length →
      ∀ r ∈ fullRegions text, r.start < span.stop → r.stop ≤ span.stop + 1) :
    Uncrossed text span := by
  have hfull := fullRegions_eq hspan
  have habove : unclosed none 0 (text.above span.start) = none := by
    cases hopen : unclosed none 0 (text.above span.start) with
    | none => rfl
    | some u =>
      -- a construct that is open at the first row has a region that reaches into it
      have hbound := above_unclosed (above_none 0) (text.above span.start) u hopen
      rw [width_above hspan.rowStart, Nat.zero_add] at hbound
      obtain ⟨r, hr, hrstart, hrstop, -⟩ := exists_region_of_pending u span.start (by omega)
        (spanRows text span ++ text.below span.stop)
      rw [hopen] at hfull
      have hle := hleft r (hfull ▸ List.mem_append_right _ hr) (by omega)
      omega
  refine ⟨hspan, habove, fun hlast => ?_⟩
  cases hopen : spanOpen text span with
  | none => rfl
  | some u =>
    -- the same at the row below the last one
    have hbound := above_unclosed (above_none span.start) (spanRows text span) u hopen
    have hwidth := width_spanRows hspan
    have hle := hspan.start_le_stop
    obtain ⟨r, hr, hrstart, hrstop, -⟩ := exists_region_of_pending u (span.stop + 1) (by omega)
      (text.below span.stop)
    rw [habove, regions_append, ← spanOpen, hopen, hwidth] at hfull
    have hle := hright hlast r
      (hfull ▸ List.mem_append_right _ (List.mem_append_right _ hr)) (by omega)
    omega

/-- The regions of a text before, on and below rows that no construct crosses. -/
theorem Uncrossed.regions_eq (h : Uncrossed text span) :
    ∃ middle, fullRegions text = closed none 0 (text.above span.start) ++
        (middle ++ regions none (span.stop + 1) (text.below span.stop)) ∧
      ∀ r ∈ middle, span.start < r.stop ∧ r.start < span.stop := by
  have hfull := fullRegions_eq h.toAligned
  have hwidth := width_spanRows h.toAligned
  have hbounds := regions_bounds (above_none span.start) (spanRows text span)
  rw [h.above] at hfull
  rcases Nat.lt_or_ge span.stop text.length with hlast | hlast
  · rw [regions_append, ← spanOpen, h.below hlast, hwidth] at hfull
    refine ⟨_, hfull, fun r hr => ?_⟩
    have hlt := closed_stop_lt (above_none span.start) hr
    have hbound := hbounds.2 r (closed_subset_regions hr)
    have hpos := hbounds.1.start_lt_stop r (closed_subset_regions hr)
    omega
  · have hbelow : text.below span.stop = [] := if_neg (Nat.not_lt.2 hlast)
    have hnone : regions none (span.stop + 1) [] = [] := rfl
    rw [hbelow, List.append_nil] at hfull
    refine ⟨_, by rw [hbelow, hnone, List.append_nil]; exact hfull, fun r hr => ?_⟩
    refine ⟨(hbounds.2 r hr).2, ?_⟩
    rcases List.mem_append.1 hr with hr | hr
    · have hlt := closed_stop_lt (above_none span.start) hr
      have hpos := hbounds.1.start_lt_stop r (closed_subset_regions hr)
      omega
    · obtain ⟨u, hu, rfl⟩ := List.mem_map.1 hr
      have hopen := Option.mem_toList.1 hu
      have hbound := above_unclosed (above_none span.start) (spanRows text span) u hopen
      dsimp only
      omega

theorem closed_above_stop_lt (hstart : text.RowStart span.start) :
    ∀ r ∈ closed none 0 (text.above span.start), r.stop < span.start := by
  intro r hr
  have hlt := closed_stop_lt (above_none 0) hr
  rwa [width_above hstart, Nat.zero_add] at hlt

theorem Uncrossed.leftOf_eq (h : Uncrossed text span) :
    leftOf span (fullRegions text) = closed none 0 (text.above span.start) := by
  obtain ⟨middle, hfull, hmiddle⟩ := h.regions_eq
  have hspan := h.start_le_stop
  have hbelow := (regions_bounds (above_none (span.stop + 1)) (text.below span.stop)).2
  have hrest : (middle ++ regions none (span.stop + 1) (text.below span.stop)).filter
      (·.stop ≤ span.start) = [] := by
    refine List.filter_eq_nil_iff.2 fun r hr => ?_
    rw [decide_eq_true_eq, Nat.not_le]
    rcases List.mem_append.1 hr with hr | hr
    · exact (hmiddle r hr).1
    · have hlt := (hbelow r hr).2
      omega
  rw [leftOf, hfull, List.filter_append, hrest, List.append_nil]
  refine List.filter_eq_self.2 fun r hr => ?_
  simpa using (closed_above_stop_lt h.rowStart r hr).le

theorem Uncrossed.filter_eq (h : Uncrossed text span) :
    (fullRegions text).filter (span.stop ≤ ·.start) =
      regions none (span.stop + 1) (text.below span.stop) := by
  have hpos := (apart_fullRegions text).start_lt_stop
  obtain ⟨middle, hfull, hmiddle⟩ := h.regions_eq
  have hspan := h.start_le_stop
  have hbelow := (regions_bounds (above_none (span.stop + 1)) (text.below span.stop)).2
  have hleft : (closed none 0 (text.above span.start)).filter (span.stop ≤ ·.start) = [] := by
    refine List.filter_eq_nil_iff.2 fun r hr => ?_
    have hlt := closed_above_stop_lt h.rowStart r hr
    have hr' := hpos r (hfull ▸ List.mem_append_left _ hr)
    simp only [decide_eq_true_eq]
    omega
  have hmid : middle.filter (span.stop ≤ ·.start) = [] := by
    refine List.filter_eq_nil_iff.2 fun r hr => ?_
    simpa using (hmiddle r hr).2
  rw [hfull, List.filter_append, List.filter_append, hleft, hmid, List.nil_append, List.nil_append]
  refine List.filter_eq_self.2 fun r hr => ?_
  have hle : span.stop + 1 ≤ r.start := (hbelow r hr).1
  simpa using Nat.le_of_succ_le hle

/-- The rows of a text above, on and below rows that no construct crosses. -/
theorem Uncrossed.rows_eq (h : Uncrossed text span) :
    fullRows text = Scan.marked none 0 (text.above span.start) ++
      (Scan.marked none (text.rowAt span.start) (spanRows text span) ++
        Scan.marked none (text.rowAt span.stop + 1) (text.below span.stop)) := by
  have habove := (carry_eq_none_iff 0 _).2 h.above
  have hlength := length_lines_slice text h.start_le_stop
  have hrows := rowAt_eq_add_slice text h.start_le_stop
  rw [← spanRows] at hlength
  have hnext : text.rowAt span.start + (spanRows text span).length = text.rowAt span.stop + 1 := by
    omega
  rw [fullRows, lines_eq_spanRows h.toAligned, List.append_assoc, Scan.marked_append, habove,
    Nat.zero_add, length_above h.rowStart, Scan.marked_append, hnext]
  rcases Nat.lt_or_ge span.stop text.length with hlast | hlast
  · rw [(carry_eq_none_iff span.start _).2 (h.below hlast)]
  · have hbelow : text.below span.stop = [] := if_neg (Nat.not_lt.2 hlast)
    rw [hbelow]
    rfl

theorem lexedRows_eq (hspan : Aligned text span) :
    lexedRows text span = spanRows text ⟨span.start, lexedStop text span⟩ := by
  unfold lexedRows lexedStop
  split_ifs with hopen
  · rfl
  · exact spanRows_append_below hspan

end

/-- Whole rows of the new text that hold an edit. No construct crosses them, nor the rows of the old
text they come from. -/
structure Covers (old new : Text) (edit : Edit) (span : Span) : Prop where
  start_le_offset : span.start ≤ edit.offset
  reach_le : edit.reach ≤ span.stop
  before : Uncrossed old ⟨span.start, edit.mapBack span.stop⟩
  after : Uncrossed new span

section

variable {edit : Edit} {old new : Text} {span : Span}

theorem Site.uncrossed (hsite : Site new edit (fullRegions old) span) (h : edit.Applies old new) :
    Uncrossed old ⟨span.start, edit.mapBack span.stop⟩ := by
  have hreach := hsite.reach_le h.reach_le
  have hback := edit.le_mapBack hsite.start_le_offset hsite.start_le_stop
  have hpos := (apart_fullRegions old).start_lt_stop
  refine uncrossed_of_uncut (h.aligned hsite.toAligned hsite.start_le_offset hreach)
    (fun r hr hlt => ?_) fun hlast r hr hlt => ?_
  · by_contra hcross
    dsimp only at hlt hcross
    have hmeets : r.meets span.start (edit.mapBack span.stop) = true := by
      simp [Region.meets]
      omega
    have huncut := (hsite.uncut r hr hmeets).1
    rw [edit.mapForward_of_lt (hlt.trans_le hsite.start_le_offset)] at huncut
    have hle := lineStart_le new r.start
    omega
  · by_contra hcross
    dsimp only at hlast hlt hcross
    have hrpos := hpos r hr
    have hmeets : r.meets span.start (edit.mapBack span.stop) = true := by
      simp [Region.meets]
      omega
    have huncut := (hsite.uncut r hr hmeets).2
    have hforward := edit.lt_mapForward (a := span.stop) (b := r.stop) (by omega) hreach
    have hle := le_lineEnd new (edit.mapForward r.stop)
    have hlast' := (h.mapBack_lt_iff hreach hsite.rowEnd.le_length).1 hlast
    omega

theorem Site.covers (hsite : Site new edit (fullRegions old) span) (h : edit.Applies old new) :
    Covers old new edit ⟨span.start, lexedStop new span⟩ := by
  have hbefore := hsite.uncrossed h
  have hreach := hsite.reach_le h.reach_le
  have habove : unclosed none 0 (new.above span.start) = none := by
    rw [h.above_eq hsite.start_le_offset]
    exact hbefore.above
  -- rows that leave a construct open are lexed to the end, and nothing lies below that
  cases hopen : spanOpen new span with
  | none =>
    have hstop : lexedStop new span = span.stop := if_pos hopen
    rw [hstop]
    exact ⟨hsite.start_le_offset, hreach, hbefore, hsite.toAligned, habove, fun _ => hopen⟩
  | some u =>
    have hstop : lexedStop new span = new.length := if_neg (by simp [hopen])
    have hlast := h.mapBack_lt_iff h.reach_le (Nat.le_refl _)
    have hspan : Aligned new ⟨span.start, new.length⟩ :=
      ⟨hsite.rowStart, .inl rfl, hsite.rowStart.le_length⟩
    rw [hstop]
    exact
      { start_le_offset := hsite.start_le_offset
        reach_le := h.reach_le
        before := ⟨h.aligned hspan hsite.start_le_offset h.reach_le, hbefore.above,
          fun hlt => absurd (hlast.1 hlt) (Nat.lt_irrefl _)⟩
        after := ⟨hspan, habove, fun hlt => absurd hlt (Nat.lt_irrefl _)⟩ }

theorem width_below {text : Text} {e : Nat} (he : e ≤ text.length) :
    e + width (text.below e) = text.length := by
  unfold below
  split_ifs with hlast
  · rw [width_lines, List.length_drop]
    omega
  · rw [width_nil]
    omega

theorem edit_length_lt (h : edit.Applies old new) (hold : old.Fits) (hnew : new.Fits) :
    edit.length < 2 ^ 63 := by
  have hle := h.length_le
  unfold Text.Fits at hold hnew
  omega

theorem fits_fullRegions (h : edit.Applies old new) (hold : old.Fits) (hnew : new.Fits) :
    Fits edit (fullRegions old) := by
  have hlength := edit_length_lt h hold hnew
  refine ⟨hlength, fun r hr => ?_⟩
  have hstop := fullRegions_stop_le hr
  have hdelta := edit.delta_le hlength
  unfold Text.Fits at hold
  unfold maxOffset
  omega

/-- The regions behind the rows of an edit are those of the rows below them. -/
theorem Site.rightOf_eq (hsite : Site new edit (fullRegions old) span) (h : edit.Applies old new)
    (hold : old.Fits) (hnew : new.Fits) :
    rightOf edit span (fullRegions old) = regions none (span.stop + 1) (new.below span.stop) := by
  have hreach := hsite.reach_le h.reach_le
  have hlength := edit_length_lt h hold hnew
  have hfilter := (hsite.uncrossed h).filter_eq
  have hmove := h.mapBack_add_delta hlength hreach
  have hwidth := width_below hsite.rowEnd.le_length
  have hshift : regions ((none : Option Unclosed).map (shiftUnclosed edit.delta)) (span.stop + 1)
        (new.below span.stop) =
      (regions none (edit.mapBack span.stop + 1) (new.below span.stop)).map
        (·.shift edit.delta) := by
    refine regions_shift (by omega) (above_none _) (by simp) ?_
    unfold Text.Fits at hnew
    unfold maxOffset
    omega
  rw [Option.map_none] at hshift
  rw [hshift, h.below_eq hreach hsite.rowEnd.le_length, rightOf]
  exact congrArg _ hfilter

theorem Site.not_collides (hsite : Site new edit (fullRegions old) span)
    (h : edit.Applies old new) (hold : old.Fits) (hnew : new.Fits) :
    ¬ Collides new span (rightOf edit span (fullRegions old)) := by
  rintro ⟨-, hlast, r, hr, -⟩
  have hbelow : new.below span.stop = [] := if_neg (Nat.not_lt.2 hlast)
  rw [hsite.rightOf_eq h hold hnew, hbelow] at hr
  exact absurd hr (List.not_mem_nil (a := r))

theorem Site.regions_eq (hsite : Site new edit (fullRegions old) span) (h : edit.Applies old new)
    (hold : old.Fits) (hnew : new.Fits) :
    leftOf span (fullRegions old) ++ lexedRegions new span (rightOf edit span (fullRegions old)) =
      fullRegions new := by
  have hbefore := hsite.uncrossed h
  have hleft : leftOf span (fullRegions old) = closed none 0 (new.above span.start) := by
    rw [h.above_eq hsite.start_le_offset]
    exact hbefore.leftOf_eq
  have hfull := fullRegions_eq hsite.toAligned
  rw [h.above_eq hsite.start_le_offset, hbefore.above, ← h.above_eq hsite.start_le_offset] at hfull
  rw [hleft, hsite.rightOf_eq h hold hnew, hfull]
  congr 1
  unfold lexedRegions
  split_ifs with hopen hlast
  · rw [regions_append, ← spanOpen, hopen, width_spanRows hsite.toAligned]
  · have hbelow : new.below span.stop = [] := if_neg (Nat.not_lt.2 hlast)
    have hnone : regions none (span.stop + 1) [] = [] := rfl
    rw [hbelow, hnone, List.append_nil]
  · rw [List.append_nil]

/-- Lexing around an edit takes the index of the old text to the index of the new one, and leaves
the rows of the new text in the window. -/
theorem afterEdit_full (reader : Reader LineLexer) (h : edit.Applies old new) (hold : old.Fits)
    (hnew : new.Fits) {state : FileState} (hstate : state.regions = fullIndex old) :
    ∃ window last events,
      afterEdit reader new edit state =
        ⟨.ok window, ⟨⟨new.rowAt window.start, Scan.marked none (new.rowAt window.start)
          (spanRows new ⟨window.start, window.stop⟩)⟩, fullIndex new⟩, last, events⟩ ∧
      window.startRow = new.rowAt window.start ∧ window.endRow = new.rowAt window.stop ∧
      Covers old new edit ⟨window.start, window.stop⟩ := by
  have hlist : state.regions.toList = fullRegions old := by rw [hstate, fullIndex]
  have hapart : Apart state.regions.toList := by
    rw [hlist]
    exact apart_fullRegions old
  have hfits : Fits edit state.regions.toList := by
    rw [hlist]
    exact fits_fullRegions h hold hnew
  have hsite := site_spec new edit hapart
  rw [hlist] at hsite
  have hfree := hsite.not_collides h hold hnew
  rw [← hlist] at hfree
  obtain ⟨window, next, last, events, hafter, hsettled, -⟩ :=
    afterEdit_ok reader new hapart hfits hfree
  have hregions : next.regions = fullIndex new := by
    apply RegionIndex.eq_of_toList
    rw [hsettled.regions, hlist, hsite.regions_eq h hold hnew]
    rfl
  have hcovers := hsite.covers h
  have hrows := hsettled.rows
  rw [lexedRows_eq hsite.toAligned, ← hsettled.stop, ← hsettled.start] at hrows
  rw [← hsettled.stop, ← hsettled.start] at hcovers
  refine ⟨window, last, events, ?_, ?_, ?_, hcovers⟩
  · rw [hafter, ← hrows, ← hregions]
  · rw [hsettled.startRow, hsettled.start]
  · rw [hsettled.endRow, hsettled.stop]

theorem Covers.rows_eq (hcovers : Covers old new edit span) (h : edit.Applies old new) :
    ∃ above inside inside' below,
      fullRows new = Scan.marked none 0 above ++ (inside ++
        Scan.marked none (new.rowAt span.stop + 1) below) ∧
      fullRows old = Scan.marked none 0 above ++ (inside' ++
        Scan.marked none (old.rowAt (edit.mapBack span.stop) + 1) below) ∧
      inside = Scan.marked none (new.rowAt span.start) (spanRows new span) ∧
      above.length = new.rowAt span.start ∧
      above.length + inside.length = new.rowAt span.stop + 1 ∧
      above.length + inside'.length = old.rowAt (edit.mapBack span.stop) + 1 := by
  have hnew := hcovers.after.rows_eq
  have hold := hcovers.before.rows_eq
  rw [h.above_eq hcovers.start_le_offset,
    h.below_eq hcovers.reach_le hcovers.after.rowEnd.le_length] at hnew
  have habove := length_above hcovers.after.rowStart
  have habove' := length_above hcovers.before.rowStart
  rw [h.above_eq hcovers.start_le_offset] at habove
  have hlength := length_lines_slice new hcovers.after.start_le_stop
  have hlength' := length_lines_slice old hcovers.before.start_le_stop
  have hrows := rowAt_eq_add_slice new hcovers.after.start_le_stop
  have hrows' := rowAt_eq_add_slice old hcovers.before.start_le_stop
  refine ⟨_, _, _, _, hnew, hold, rfl, habove, ?_, ?_⟩
  · rw [Scan.length_marked, spanRows]
    omega
  · rw [Scan.length_marked, spanRows]
    dsimp only at habove' hlength' hrows' ⊢
    omega

/-- One edit of a text whose regions are in the index. What lexing its rows leaves is what lexing
the new text leaves: all of its regions, and of its rows those in the window. The rows outside of
the window are rows of the old text. What the parsers have counted does not matter. -/
theorem afterEdit_simulates_entire (reader full : Reader LineLexer) (h : edit.Applies old new)
    (hold : old.Fits) (hnew : new.Fits) (fresh : FileState) {state : FileState}
    (hstate : state.regions = (entire full old fresh).state.regions) :
    ∃ window,
      (afterEdit reader new edit state).result = .ok window ∧
      (afterEdit reader new edit state).state.regions = (entire full new fresh).state.regions ∧
      window.startRow ≤ window.endRow ∧ window.endRow < new.lineCount ∧
      (afterEdit reader new edit state).state.rows =
        ⟨window.startRow, ((entire full new fresh).state.rows.rows.drop window.startRow).take
          (window.endRow + 1 - window.startRow)⟩ ∧
      (∀ row < window.startRow, (entire full new fresh).state.rows.rows[row]? =
        (entire full old fresh).state.rows.rows[row]?) ∧
      ∀ row, window.endRow < row → row < new.lineCount →
        ∃ row', row' + new.lineCount = row + old.lineCount ∧ row' < old.lineCount ∧
          (entire full new fresh).state.rows.rows[row]? =
            (entire full old fresh).state.rows.rows[row']?.map (·.map (·.onRow row)) := by
  rw [entire_eq] at hstate
  obtain ⟨window, last, events, hafter, hstartRow, hendRow, hcovers⟩ :=
    afterEdit_full reader h hold hnew hstate
  obtain ⟨above, inside, inside', below, hrows, hrows', hinside, habove, hlength, hlength'⟩ :=
    hcovers.rows_eq h
  dsimp only at hinside habove hlength hlength'
  have hcount := congrArg List.length hrows
  have hcount' := congrArg List.length hrows'
  simp only [fullRows, List.length_append, Scan.length_marked, length_lines] at hcount hcount'
  have hpos : 0 < inside.length := by
    rw [hinside, Scan.length_marked]
    exact List.length_pos_iff.2 (lines_ne_nil _)
  rw [hafter, entire_eq full new, entire_eq full old]
  refine ⟨window, rfl, rfl, by omega, by omega, ?_, fun row hrow => ?_, fun row hrow hlast => ?_⟩
  · have hdrop : (fullRows new).drop window.startRow =
        inside ++ Scan.marked none (new.rowAt window.stop + 1) below := by
      rw [hrows]
      exact List.drop_left' (by rw [Scan.length_marked, habove, hstartRow])
    have htake : ((fullRows new).drop window.startRow).take (window.endRow + 1 - window.startRow) =
        inside := by
      rw [hdrop]
      exact List.take_left' (by omega)
    dsimp only
    rw [htake, hinside, hstartRow]
  · dsimp only
    have hrow' : row < (Scan.marked none 0 above).length := by
      rw [Scan.length_marked]
      omega
    rw [hrows, hrows', List.getElem?_append_left hrow', List.getElem?_append_left hrow']
  · dsimp only
    -- both texts have the same rows below the window, each with its own number
    obtain ⟨i, rfl⟩ := Nat.exists_eq_add_of_lt hrow
    have hget (middle rest : List (List Token)) :
        (Scan.marked none 0 above ++ (middle ++ rest))[above.length + middle.length + i]? =
          rest[i]? := by
      rw [← List.append_assoc, List.getElem?_append_right (by simp [Scan.length_marked])]
      congr 1
      simp [Scan.length_marked]
    refine ⟨above.length + inside'.length + i, by omega, by omega, ?_⟩
    have hat : window.endRow + i + 1 = above.length + inside.length + i := by omega
    have hat' : new.rowAt window.stop + 1 + i = above.length + inside.length + i := by omega
    rw [hrows, hrows', hat, hget, hget,
      Scan.getElem?_marked_onRow none (old.rowAt (edit.mapBack window.stop) + 1), hat']

/-- The end of an open comment is typed on its second row. -/
theorem afterEdit_simulates_entire_closing :
    let reader : Reader LineLexer := { lexer := LineLexer.mk }
    (afterEdit reader ['~', ':', '\n', ':', '~', 'a'] ⟨3, 2, .insert⟩
        (entire reader ['~', ':', '\n', 'a'] {}).state).state.regions =
      (entire reader ['~', ':', '\n', ':', '~', 'a'] {}).state.regions := by
  intro reader
  have hinsert : Edit.Applies ⟨3, 2, .insert⟩ ['~', ':', '\n', 'a']
      ['~', ':', '\n', ':', '~', 'a'] :=
    @Edit.Applies.insert ['~', ':', '\n', 'a'] 3 [':', '~'] (by decide)
  obtain ⟨window, -, hregions, -⟩ :=
    afterEdit_simulates_entire reader reader hinsert (by decide) (by decide) {} rfl
  exact hregions

end

end Relex
end LiveHighlight
