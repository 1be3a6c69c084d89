import Mathlib
import LiveHighlight.Proofs.Delimiters
import LiveHighlight.Proofs.TailRebuild

/-! What the regions of a text stand for. A region begins at an opening delimiter and ends just past
the first closing one, on a row further down; the last one may be without a closing delimiter. At a
line break, the scan has a construct open exactly if a region of that construct covers the break. -/

namespace LiveHighlight

namespace Text

theorem lines_take_succ_rowAt {text : Text} {p : Nat} (h : text[p]? = some '\n') :
    text.rowAt p < text.lines.length ∧
      text.lines.take (text.rowAt p + 1) = lines (text.take p) := by
  have hlength : (lines (text.take p)).length = text.rowAt p + 1 := by
    rw [length_lines, lineCount, rowAt]
  rw [lines_eq_append_below (.inr h)]
  refine ⟨?_, List.take_left' hlength⟩
  rw [List.length_append]
  omega

end Text

namespace Constructs

open Text Fragments

/-- A construct that is open where a row starts: it begins with its opening delimiter on a row
above, and no closing one stands between. -/
structure OpenAt (text : Text) (u : Unclosed) (start : Nat) : Prop where
  opener : PairAt u.construct.opener text u.start
  above : u.start + 1 < start
  unclosed : ∀ i, u.start + 2 ≤ i → i < start → ¬ PairAt u.construct.closer text i

/-- A region that ends with the first closing delimiter after its opening one, on another row. -/
structure Closes (text : Text) (r : Region) : Prop where
  opener : PairAt r.construct.opener text r.start
  crosses : ∃ p, r.start ≤ p ∧ p < r.stop ∧ text[p]? = some '\n'
  closer : ∃ k, r.stop = k + 2 ∧ r.start + 2 ≤ k ∧ PairAt r.construct.closer text k
  first : ∀ i, r.start + 2 ≤ i → i + 2 < r.stop → ¬ PairAt r.construct.closer text i

theorem Closes.stop_le {text : Text} {r : Region} (h : Closes text r) : r.stop ≤ text.length := by
  obtain ⟨k, hstop, -, hcloser⟩ := h.closer
  have hlt := hcloser.lt_length
  omega

section

variable {text line : Text} {upper rest : List Text}

theorem openAt_of_opening (hlines : text.lines = upper ++ line :: rest) {n : Nat}
    (hn : n ≤ line.length) {u : Unclosed}
    (h : opening (width upper) (Scan.tokens 0 n 0 (line.drop n)) = some u) :
    OpenAt text u (width upper + line.length + 1) := by
  obtain ⟨k, -, hk, hstart, htokens⟩ := exists_of_opening hn h
  obtain ⟨-, halone⟩ := htokens 0
  have hopener := u.construct.opener_ne_break
  have hcloser := u.construct.closer_ne_break
  -- the fragment that is read at the opening delimiter takes up the rest of the row
  have hpairs : PairAt u.construct.opener (line.drop k) 0 ∧
      ∀ i, 2 ≤ i → ¬ PairAt u.construct.closer (line.drop k) i := by
    cases hdrop : line.drop k with
    | nil =>
      rw [hdrop] at halone
      cases halone
    | cons c tail =>
      rw [hdrop] at halone
      by_cases hblank : isBlank c
      · rw [Scan.tokens_blank 0 0 tail hblank] at halone
        have hmem : Scan.openingToken 0 0 u.construct (c :: tail) ∈ Scan.tokens 0 1 0 tail := by
          rw [halone]
          exact List.mem_singleton_self _
        have hlow := (Scan.tokens_laidOut 0 1 0 tail (Nat.zero_le _)).low_le _ hmem
        cases hlow
      · rw [Scan.tokens_read 0 0 tail hblank] at halone
        have hkind := congrArg Token.kind (List.cons.inj halone).1
        exact Lexeme.read_fragment_pairs hkind
  obtain ⟨hfirst, hfree⟩ := hpairs
  rw [pairAt_drop, Nat.add_zero] at hfirst
  have hroom := hfirst.lt_length
  refine ⟨?_, by omega, ?_⟩
  · rw [hstart]
    exact (pairAt_row hlines hopener.1 hopener.2 hk.le).2 hfirst
  · intro i hlow hhigh hclose
    obtain ⟨j, rfl⟩ : ∃ j, i = width upper + (k + j) := ⟨i - (width upper + k), by omega⟩
    rw [pairAt_row hlines hcloser.1 hcloser.2 (by omega), ← pairAt_drop] at hclose
    exact hfree j (by omega) hclose

/-- What is open after a row was open before it and is not closed on it, or is opened on it. -/
theorem OpenAt.openAfter {pending : Option Unclosed}
    (hlines : text.lines = upper ++ line :: rest)
    (hpending : ∀ u, pending = some u → OpenAt text u (width upper)) {u : Unclosed}
    (h : Constructs.openAfter pending (width upper) line = some u) :
    OpenAt text u (width upper + line.length + 1) := by
  cases pending with
  | none => exact openAt_of_opening hlines (Nat.zero_le _) h
  | some v =>
    rw [Constructs.openAfter] at h
    cases hpast : Lexeme.pastPair v.construct.closer line with
    | some n =>
      rw [hpast] at h
      exact openAt_of_opening hlines (Lexeme.pastPair_bounds hpast).2 h
    | none =>
      rw [hpast] at h
      obtain rfl := Option.some.inj h
      have hopen := hpending v rfl
      have hcloser := v.construct.closer_ne_break
      have habove := hopen.above
      refine ⟨hopen.opener, by omega, ?_⟩
      intro i hlow hhigh
      rcases Nat.lt_or_ge i (width upper) with hi | hi
      · exact hopen.unclosed i hlow hi
      · obtain ⟨j, rfl⟩ := Nat.exists_eq_add_of_le hi
        rw [pairAt_row hlines hcloser.1 hcloser.2 (by omega)]
        exact Lexeme.pastPair_eq_none_iff.1 hpast j

theorem OpenAt.closedOn {pending : Option Unclosed}
    (hlines : text.lines = upper ++ line :: rest)
    (hpending : ∀ u, pending = some u → OpenAt text u (width upper)) {r : Region}
    (h : r ∈ Constructs.closedOn pending (width upper) line) : Closes text r := by
  cases pending with
  | none => cases h
  | some u =>
    rw [Constructs.closedOn] at h
    cases hpast : Lexeme.pastPair u.construct.closer line with
    | none =>
      rw [hpast] at h
      cases h
    | some n =>
      rw [hpast] at h
      obtain rfl := List.mem_singleton.1 h
      obtain ⟨k, rfl, hfound, hfree⟩ := Lexeme.pairAt_of_pastPair hpast
      have hopen := hpending u rfl
      have hcloser := u.construct.closer_ne_break
      have habove := hopen.above
      have hroom := hfound.lt_length
      refine ⟨hopen.opener, ⟨width upper - 1, ?_, ?_, ?_⟩, ⟨width upper + k, ?_, ?_, ?_⟩, ?_⟩
      · dsimp only
        omega
      · dsimp only
        omega
      · exact getElem?_break_above hlines (by omega)
      · rfl
      · dsimp only
        omega
      · exact (pairAt_row hlines hcloser.1 hcloser.2 (by omega)).2 hfound
      · -- on the rows above there is none, and on this row it is the first one
        intro i hlow hhigh
        rcases Nat.lt_or_ge i (width upper) with hi | hi
        · exact hopen.unclosed i hlow hi
        · obtain ⟨j, rfl⟩ := Nat.exists_eq_add_of_le hi
          dsimp only at hhigh
          rw [pairAt_row hlines hcloser.1 hcloser.2 (by omega)]
          exact hfree j (by omega)

end

/-- The regions that close on rows of a text, and what the rows leave open. -/
theorem OpenAt.rows {text : Text} {upper : List Text} {pending : Option Unclosed}
    (rows : List Text) (hlines : text.lines = upper ++ rows)
    (hpending : ∀ u, pending = some u → OpenAt text u (width upper)) :
    (∀ r ∈ closed pending (width upper) rows, Closes text r) ∧
      ∀ u, Constructs.unclosed pending (width upper) rows = some u →
        OpenAt text u (width upper + width rows) := by
  induction rows generalizing upper pending with
  | nil =>
    refine ⟨?_, hpending⟩
    intro r hr
    cases hr
  | cons line rows ih =>
    have hnext : width (upper ++ [line]) = width upper + line.length + 1 := by
      rw [width_append, width_cons, width_nil]
      omega
    have hsplit : text.lines = upper ++ [line] ++ rows := by simp [hlines]
    obtain ⟨hclosed, hopen⟩ := ih hsplit fun u hu => by
      rw [hnext]
      exact OpenAt.openAfter hlines hpending hu
    rw [hnext] at hclosed hopen
    constructor
    · intro r hr
      rcases List.mem_append.1 hr with hr | hr
      · exact OpenAt.closedOn hlines hpending hr
      · exact hclosed r hr
    · intro u hu
      rw [width_cons, ← Nat.add_assoc, ← Nat.add_assoc]
      exact hopen u hu

end Constructs

namespace Relex

open Text Fragments Constructs

/-- A region of a text is closed, or it is the last one and reaches past the end. -/
theorem fullRegions_cases {text : Text} {r : Region} (hr : r ∈ fullRegions text) :
    Closes text r ∨ (fullRegions text).getLast? = some r ∧ r.stop = text.length + overhang ∧
      PairAt r.construct.opener text r.start ∧
      ∀ i, r.start + 2 ≤ i → ¬ PairAt r.construct.closer text i := by
  obtain ⟨hclosed, hopen⟩ := @OpenAt.rows text [] none text.lines rfl fun u hu => by cases hu
  rw [width_nil] at hclosed hopen
  rcases List.mem_append.1 hr with hr | hr
  · exact .inl (hclosed r hr)
  · obtain ⟨u, hu, rfl⟩ := List.mem_map.1 hr
    have hunclosed := Option.mem_toList.1 hu
    have hlast := hopen u hunclosed
    rw [width_lines] at hlast
    refine .inr ⟨?_, ?_, hlast.opener, ?_⟩
    · rw [fullRegions, regions, hunclosed, leftOpen, Option.toList_some, List.map_singleton,
        List.getLast?_concat]
    · rw [width_lines, Nat.zero_add, Nat.add_sub_cancel]
    · intro i hi hclose
      have hlt := hclose.lt_length
      exact hlast.unclosed i hi (by omega) hclose

/-- At a line break, what the scan has open is what a region covers. -/
theorem after_eq_some_iff {text : Text} {p : Nat} (hp : text[p]? = some '\n') (k : Construct) :
    (Scan.lines none 0 text.lines)[text.rowAt p]?.bind (·.after) = some k ↔
      ∃ r ∈ fullRegions text, r.construct = k ∧ r.start ≤ p ∧ p < r.stop := by
  obtain ⟨hrow, htake⟩ := lines_take_succ_rowAt hp
  have hlt := (List.getElem?_eq_some_iff.1 hp).1
  have hwidth : 0 + width (lines (text.take p)) = p + 1 := by
    rw [width_lines, List.length_take]
    omega
  have hfull : fullRegions text = closed none 0 (lines (text.take p)) ++
      regions (unclosed none 0 (lines (text.take p))) (p + 1) (text.below p) := by
    rw [fullRegions, lines_eq_append_below (.inr hp), regions_append, hwidth]
  have habove := above_unclosed (above_none 0) (lines (text.take p))
  rw [hwidth] at habove
  rw [Scan.after_getElem? none 0 text.lines hrow, htake, ← Option.map_none,
    ← unclosed_construct none 0]
  -- a region of the rows down to the break ends before it, so it cannot cover it
  have hclosed : ∀ r ∈ closed none 0 (lines (text.take p)), ¬ p < r.stop := by
    intro r hr
    have hstop := closed_stop_lt (above_none 0) hr
    omega
  cases hpending : unclosed none 0 (lines (text.take p)) with
  | none =>
    rw [hpending] at hfull
    constructor
    · intro h
      cases h
    · rintro ⟨r, hr, -, hstart, hstop⟩
      rw [hfull] at hr
      rcases List.mem_append.1 hr with hr | hr
      · exact absurd hstop (hclosed r hr)
      · have hlow : p + 1 ≤ r.start := ((regions_bounds (above_none (p + 1)) _).2 r hr).1
        omega
  | some u =>
    rw [hpending] at hfull habove
    have hu := habove u rfl
    obtain ⟨s, hs, hsstart, hsstop, hskind⟩ :=
      exists_region_of_pending u (p + 1) (by omega) (text.below p)
    have hmem : s ∈ fullRegions text := hfull ▸ List.mem_append_right _ hs
    rw [Option.map_some, Option.some.injEq, ← hskind]
    constructor
    · intro hkind
      exact ⟨s, hmem, hkind, by omega, by omega⟩
    · rintro ⟨r, hr, rfl, hstart, hstop⟩
      rw [(apart_fullRegions text).eq_of_covers hmem hr (by omega) (by omega) hstart hstop]

/-- The regions that lexing a whole text leaves are its constructs of several rows. A construct is
open at a line break exactly if a region of its kind covers the break. Each region begins with the
opening delimiter of its construct; it crosses a line break and ends with the first closing one, or
it is the last region and nothing closes it. -/
theorem entire_regions_are_constructs (reader : Reader LineLexer) (text : Text)
    (state : FileState) :
    let regions := (entire reader text state).state.regions.toList
    Apart regions ∧
      (∀ p, text[p]? = some '\n' →
        (∀ k, (Scan.lines none 0 text.lines)[text.rowAt p]?.bind (·.after) = some k ↔
          ∃ r ∈ regions, r.construct = k ∧ r.start ≤ p ∧ p < r.stop) ∧
        ((Scan.lines none 0 text.lines)[text.rowAt p]?.bind (·.after) = none ↔
          ∀ r ∈ regions, ¬ (r.start ≤ p ∧ p < r.stop))) ∧
      (∀ r ∈ regions, PairAt r.construct.opener text r.start) ∧
      (∀ r ∈ regions, r.stop ≤ text.length →
        (∃ p, r.start ≤ p ∧ p < r.stop ∧ text[p]? = some '\n') ∧
        ∃ k, r.stop = k + 2 ∧ r.start + 2 ≤ k ∧ PairAt r.construct.closer text k ∧
          ∀ i, r.start + 2 ≤ i → i < k → ¬ PairAt r.construct.closer text i) ∧
      ∀ r ∈ regions, text.length < r.stop →
        regions.getLast? = some r ∧ r.stop = text.length + 2 ∧
          ∀ i, r.start + 2 ≤ i → ¬ PairAt r.construct.closer text i := by
  intro regions
  have hregions : regions = fullRegions text := by
    show (entire reader text state).state.regions.toList = _
    rw [entire_eq]
    rfl
  rw [hregions]
  refine ⟨apart_fullRegions text, ?_, ?_, ?_, ?_⟩
  · intro p hp
    refine ⟨after_eq_some_iff hp, ?_⟩
    rw [Option.eq_none_iff_forall_ne_some]
    constructor
    · intro hnone r hr hcovers
      exact hnone _ ((after_eq_some_iff hp _).2 ⟨r, hr, rfl, hcovers⟩)
    · intro hfree k hk
      obtain ⟨r, hr, -, hcovers⟩ := (after_eq_some_iff hp k).1 hk
      exact hfree r hr hcovers
  · intro r hr
    rcases fullRegions_cases hr with hcloses | ⟨-, -, hopener, -⟩
    · exact hcloses.opener
    · exact hopener
  · intro r hr hstop
    rcases fullRegions_cases hr with hcloses | ⟨-, hlast, -⟩
    · obtain ⟨k, hk, hlow, hcloser⟩ := hcloses.closer
      refine ⟨hcloses.crosses, k, hk, hlow, hcloser, ?_⟩
      intro i hi hik
      exact hcloses.first i hi (by omega)
    · rw [hlast] at hstop
      exact absurd hstop (Nat.not_le.2 (Nat.lt_add_of_pos_right (by decide)))
  · intro r hr hstop
    rcases fullRegions_cases hr with hcloses | ⟨hlast, hend, -, hfree⟩
    · exact absurd hcloses.stop_le (Nat.not_le.2 hstop)
    · exact ⟨hlast, hend, hfree⟩

end Relex
end LiveHighlight
