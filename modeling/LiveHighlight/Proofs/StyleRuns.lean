import Mathlib
import LiveHighlight.Buffer
import LiveHighlight.Proofs.TextRows

/-! Runs of one style. The runs of a buffer follow each other without a gap, no two neighbours have
one style, and they give each character its style back; no other list of runs does so. Put another
way, they are the ranges of one style that cannot be made longer, in order. -/

namespace LiveHighlight

/-- Runs that are not empty and lead from one offset to another without a gap. -/
def Tiles : (start stop : Nat) → List StyleRun → Prop
  | start, stop, [] => start = stop
  | start, stop, run :: runs => run.start = start ∧ run.start < run.stop ∧ Tiles run.stop stop runs

/-- The styles of the characters of runs, one by one. -/
def expand (runs : List StyleRun) : List TokenStyle :=
  runs.flatMap fun run => .replicate (run.stop - run.start) run.style

/-- The runs group the styles that stand between two offsets. -/
structure Groups (start stop : Nat) (styles : List TokenStyle) (runs : List StyleRun) : Prop where
  tiles : Tiles start stop runs
  differ : runs.IsChain fun a b => a.style ≠ b.style
  expand_eq : expand runs = styles

/-- A range of one style that cannot be made longer on either side. -/
structure MaximalRun (styles : List TokenStyle) (run : StyleRun) : Prop where
  start_lt_stop : run.start < run.stop
  inside : ∀ i, run.start ≤ i → i < run.stop → styles[i]? = some run.style
  left : ∀ i, i + 1 = run.start → styles[i]? ≠ some run.style
  right : styles[run.stop]? ≠ some run.style

section

variable {start stop : Nat} {runs : List StyleRun}

theorem expand_cons (run : StyleRun) (runs : List StyleRun) :
    expand (run :: runs) = .replicate (run.stop - run.start) run.style ++ expand runs :=
  List.flatMap_cons

theorem Tiles.length_expand (h : Tiles start stop runs) : start + (expand runs).length = stop := by
  induction runs generalizing start with
  | nil => exact h
  | cons run runs ih =>
    obtain ⟨rfl, hlt, hrest⟩ := h
    have hlength := ih hrest
    rw [expand_cons, List.length_append, List.length_replicate]
    omega

theorem Tiles.le (h : Tiles start stop runs) : start ≤ stop := by
  have hlength := h.length_expand
  omega

theorem tiles_append {front back : List StyleRun} :
    Tiles start stop (front ++ back) ↔
      ∃ middle, Tiles start middle front ∧ Tiles middle stop back := by
  induction front generalizing start with
  | nil => simp [Tiles]
  | cons run front ih => simp [Tiles, ih, and_assoc]

/-- A run of equal styles in front of runs that start with another style is one run more. -/
theorem runsFrom_replicate_append (offset : Nat) (style : TokenStyle) (n : Nat)
    {styles : List TokenStyle}
    (h : ∀ run ∈ (TextBuffer.runsFrom (offset + (n + 1)) styles).head?, style ≠ run.style) :
    TextBuffer.runsFrom offset (.replicate (n + 1) style ++ styles) =
      ⟨offset, offset + (n + 1), style⟩ :: TextBuffer.runsFrom (offset + (n + 1)) styles := by
  induction n generalizing offset with
  | zero =>
    rw [Nat.zero_add] at h ⊢
    rw [List.replicate_one, List.singleton_append, TextBuffer.runsFrom]
    cases hruns : TextBuffer.runsFrom (offset + 1) styles with
    | nil => rfl
    | cons run runs =>
      rw [hruns] at h
      exact if_neg (h run rfl).symm
  | succ n ih =>
    have hoffset : offset + 1 + (n + 1) = offset + (n + 1 + 1) := by omega
    rw [← hoffset] at h ⊢
    rw [List.replicate_succ, List.cons_append, TextBuffer.runsFrom, ih (offset + 1) h]
    exact if_pos rfl

/-- Grouping the characters of runs gives the runs back. -/
theorem runsFrom_expand (htiles : Tiles start stop runs)
    (hdiffer : runs.IsChain fun a b => a.style ≠ b.style) :
    TextBuffer.runsFrom start (expand runs) = runs := by
  induction runs generalizing start with
  | nil => rfl
  | cons run runs ih =>
    obtain ⟨rfl, hlt, hrest⟩ := htiles
    obtain ⟨n, hn⟩ : ∃ n, run.stop = run.start + (n + 1) := ⟨run.stop - run.start - 1, by omega⟩
    have hruns := ih hrest hdiffer.tail
    rw [expand_cons, show run.stop - run.start = n + 1 by omega, runsFrom_replicate_append,
      ← hn, hruns]
    rw [← hn, hruns]
    exact hdiffer.rel_head?

theorem runsFrom_groups (offset : Nat) (styles : List TokenStyle) :
    Groups offset (offset + styles.length) styles (TextBuffer.runsFrom offset styles) := by
  induction styles generalizing offset with
  | nil => exact ⟨rfl, .nil, rfl⟩
  | cons style styles ih =>
    obtain ⟨htiles, hdiffer, hexpand⟩ := ih (offset + 1)
    have hstop : offset + 1 + styles.length = offset + (style :: styles).length := by
      rw [List.length_cons]
      omega
    rw [hstop] at htiles
    rw [TextBuffer.runsFrom]
    cases hruns : TextBuffer.runsFrom (offset + 1) styles with
    | nil =>
      rw [hruns] at htiles hexpand
      refine ⟨⟨rfl, Nat.lt_succ_self _, htiles⟩, .singleton _, ?_⟩
      rw [expand_cons, Nat.add_sub_cancel_left, hexpand]
      rfl
    | cons run runs =>
      rw [hruns] at htiles hexpand hdiffer
      obtain ⟨hstart, hlt, hrest⟩ := htiles
      dsimp only
      split_ifs with hstyle
      · subst hstyle
        refine ⟨⟨rfl, by dsimp only; omega, hrest⟩, ?_, ?_⟩
        · exact .cons hdiffer.tail fun next hnext => hdiffer.rel_head? hnext
        · have hlength : run.stop - offset = run.stop - run.start + 1 := by omega
          rw [expand_cons] at hexpand ⊢
          rw [hlength, List.replicate_succ, List.cons_append, hexpand]
      · refine ⟨⟨rfl, Nat.lt_succ_self _, hstart, hlt, hrest⟩, ?_, ?_⟩
        · exact List.isChain_cons_cons.2 ⟨fun h => hstyle h.symm, hdiffer⟩
        · rw [expand_cons, Nat.add_sub_cancel_left, hexpand]
          rfl

theorem groups_iff {styles : List TokenStyle} :
    Groups start (start + styles.length) styles runs ↔
      runs = TextBuffer.runsFrom start styles := by
  constructor
  · rintro ⟨htiles, hdiffer, rfl⟩
    exact (runsFrom_expand htiles hdiffer).symm
  · rintro rfl
    exact runsFrom_groups start styles

theorem Tiles.exists_covering (h : Tiles start stop runs) {i : Nat} (hlow : start ≤ i)
    (hhigh : i < stop) : ∃ run ∈ runs, run.start ≤ i ∧ i < run.stop := by
  induction runs generalizing start with
  | nil =>
    cases h
    omega
  | cons run runs ih =>
    obtain ⟨rfl, -, hrest⟩ := h
    rcases Nat.lt_or_ge i run.stop with hi | hi
    · exact ⟨run, List.mem_cons_self, hlow, hi⟩
    · obtain ⟨later, hmem, hcovers⟩ := ih hrest hi
      exact ⟨later, List.mem_cons_of_mem _ hmem, hcovers⟩

theorem Tiles.start_le_of_mem (h : Tiles start stop runs) : ∀ run ∈ runs, start ≤ run.start := by
  induction runs generalizing start with
  | nil => nofun
  | cons run runs ih =>
    obtain ⟨rfl, hlt, hrest⟩ := h
    exact List.forall_mem_cons.2 ⟨Nat.le_refl _, fun later hmem =>
      hlt.le.trans (ih hrest later hmem)⟩

theorem Tiles.ordered (h : Tiles start stop runs) :
    runs.Pairwise fun a b => a.stop ≤ b.start := by
  induction runs generalizing start with
  | nil => exact .nil
  | cons run runs ih => exact .cons h.2.2.start_le_of_mem (ih h.2.2)

theorem expand_append (front back : List StyleRun) :
    expand (front ++ back) = expand front ++ expand back :=
  List.flatMap_append

theorem Tiles.head?_expand (h : Tiles start stop runs) :
    (expand runs).head? = runs.head?.map (·.style) := by
  cases runs with
  | nil => rfl
  | cons run runs =>
    have hpos : run.stop - run.start ≠ 0 := Nat.sub_ne_zero_of_lt h.2.1
    rw [expand_cons, List.head?_append, List.head?_replicate, if_neg hpos]
    rfl

theorem Tiles.getLast?_expand (h : Tiles start stop runs) :
    (expand runs).getLast? = runs.getLast?.map (·.style) := by
  rcases List.eq_nil_or_concat' runs with rfl | ⟨front, last, rfl⟩
  · rfl
  · obtain ⟨middle, -, -, hlt, -⟩ := tiles_append.1 h
    have hpos : last.stop - last.start ≠ 0 := Nat.sub_ne_zero_of_lt hlt
    rw [expand_append, expand_cons, List.getLast?_append, List.getLast?_append,
      List.getLast?_replicate, if_neg hpos, List.getLast?_concat]
    rfl

/-- A run among others cannot be made longer: the character before it belongs to a run of another
style, and so does the one after it. -/
theorem Groups.maximal {styles : List TokenStyle} (h : Groups 0 stop styles runs) {run : StyleRun}
    (hmem : run ∈ runs) : MaximalRun styles run := by
  obtain ⟨htiles, hdiffer, rfl⟩ := h
  obtain ⟨front, back, rfl⟩ := List.append_of_mem hmem
  obtain ⟨middle, hfront, hstart, hlt, hback⟩ := tiles_append.1 htiles
  obtain ⟨-, hafter, hbefore⟩ := List.isChain_append.1 hdiffer
  have hlength := hfront.length_expand
  rw [Nat.zero_add, ← hstart] at hlength
  rw [expand_append, expand_cons]
  refine ⟨hlt, fun i hlow hhigh => ?_, fun i hi => ?_, ?_⟩
  · rw [List.getElem?_append_right (by omega), List.getElem?_append_left (by simp; omega),
      List.getElem?_replicate_of_lt (by omega)]
  · have hlast : (expand front)[i]? = front.getLast?.map (·.style) := by
      rw [← hfront.getLast?_expand, List.getLast?_eq_getElem?, hlength, ← hi, Nat.add_sub_cancel]
    rw [List.getElem?_append_left (by omega), hlast]
    intro hsame
    obtain ⟨last, hlast, hstyle⟩ := Option.map_eq_some_iff.1 hsame
    exact hbefore last hlast run rfl hstyle
  · have hnext : (expand back)[0]? = back.head?.map (·.style) := by
      rw [← hback.head?_expand, List.head?_eq_getElem?]
    rw [List.getElem?_append_right (by omega), List.getElem?_append_right (by simp; omega),
      List.length_replicate, hlength, Nat.sub_self, hnext]
    intro hsame
    obtain ⟨next, hnext, hstyle⟩ := Option.map_eq_some_iff.1 hsame
    exact hafter.rel_head? hnext hstyle.symm

end

/-- Two ranges that cannot be made longer are one if they share a character. -/
theorem MaximalRun.unique {styles : List TokenStyle} {a b : StyleRun} (ha : MaximalRun styles a)
    (hb : MaximalRun styles b) {i : Nat} (hastart : a.start ≤ i) (hastop : i < a.stop)
    (hbstart : b.start ≤ i) (hbstop : i < b.stop) : a = b := by
  have hstyle : a.style = b.style :=
    Option.some.inj ((ha.inside i hastart hastop).symm.trans (hb.inside i hbstart hbstop))
  have hstart : a.start = b.start := by
    rcases Nat.lt_trichotomy a.start b.start with h | h | h
    · exact absurd ((ha.inside (b.start - 1) (by omega) (by omega)).trans (by rw [hstyle]))
        (hb.left _ (by omega))
    · exact h
    · exact absurd ((hb.inside (a.start - 1) (by omega) (by omega)).trans (by rw [hstyle]))
        (ha.left _ (by omega))
  have hstop : a.stop = b.stop := by
    rcases Nat.lt_trichotomy a.stop b.stop with h | h | h
    · exact absurd ((hb.inside a.stop (by omega) h).trans (by rw [hstyle])) ha.right
    · exact h
    · exact absurd ((ha.inside b.stop (by omega) h).trans (by rw [hstyle])) hb.right
  cases a
  cases b
  cases hstyle
  cases hstart
  cases hstop
  rfl

theorem Groups.mem_iff_maximal {styles : List TokenStyle} {runs : List StyleRun}
    (h : Groups 0 styles.length styles runs) (run : StyleRun) :
    run ∈ runs ↔ MaximalRun styles run := by
  constructor
  · exact h.maximal
  · intro hrun
    have hfirst := hrun.inside run.start (Nat.le_refl _) hrun.start_lt_stop
    obtain ⟨hlt, -⟩ := List.getElem?_eq_some_iff.1 hfirst
    obtain ⟨other, hmem, hlow, hhigh⟩ := h.tiles.exists_covering (Nat.zero_le _) hlt
    rw [hrun.unique (h.maximal hmem) (Nat.le_refl _) hrun.start_lt_stop hlow hhigh]
    exact hmem

theorem Text.slice_append_slice (text : Text) {start middle stop : Nat} (hlow : start ≤ middle)
    (hhigh : middle ≤ stop) :
    text.slice start middle ++ text.slice middle stop = text.slice start stop := by
  have hlength : stop - start = middle - start + (stop - middle) := by omega
  rw [slice, slice, slice, hlength, List.take_add, List.drop_drop, Nat.add_sub_cancel' hlow]

theorem Tiles.flatMap_slice {start stop : Nat} {runs : List StyleRun} (h : Tiles start stop runs)
    (text : Text) :
    (runs.flatMap fun run => text.slice run.start run.stop) = text.slice start stop := by
  induction runs generalizing start with
  | nil =>
    cases h
    simp [Text.slice]
  | cons run runs ih =>
    obtain ⟨rfl, hlt, hrest⟩ := h
    rw [List.flatMap_cons, ih hrest, Text.slice_append_slice text hlt.le hrest.le]

namespace TextBuffer

/-- The runs of a buffer, each with its text. -/
def pieces (buffer : TextBuffer) : List (StyleRun × Text) :=
  buffer.styleRuns.map fun run => (run, buffer.text.slice run.start run.stop)

variable (buffer : TextBuffer)

theorem groups_styleRuns_iff (runs : List StyleRun) :
    Groups 0 buffer.length buffer.styles runs ↔ runs = buffer.styleRuns := by
  have h : Groups 0 (0 + buffer.styles.length) buffer.styles runs ↔ runs = buffer.styleRuns :=
    groups_iff
  rwa [Nat.zero_add, buffer.styled] at h

theorem groups_styleRuns : Groups 0 buffer.length buffer.styles buffer.styleRuns :=
  (buffer.groups_styleRuns_iff _).2 rfl

theorem flatMap_pieces : buffer.pieces.flatMap (·.2) = buffer.text := by
  rw [pieces, List.flatMap_map, buffer.groups_styleRuns.tiles.flatMap_slice]
  exact List.take_length

theorem mem_pieces_iff (run : StyleRun) (text : Text) :
    (run, text) ∈ buffer.pieces ↔
      MaximalRun buffer.styles run ∧ text = buffer.text.slice run.start run.stop := by
  have hgroups := buffer.groups_styleRuns
  rw [length, ← buffer.styled] at hgroups
  rw [← hgroups.mem_iff_maximal, pieces, List.mem_map]
  constructor
  · rintro ⟨run, hmem, h⟩
    cases h
    exact ⟨hmem, rfl⟩
  · rintro ⟨hmem, rfl⟩
    exact ⟨run, hmem, rfl⟩

theorem pieces_ordered : buffer.pieces.Pairwise fun a b => a.1.stop ≤ b.1.start :=
  List.pairwise_map.2 buffer.groups_styleRuns.tiles.ordered

end TextBuffer
end LiveHighlight
