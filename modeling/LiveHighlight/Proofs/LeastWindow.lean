import Mathlib
import LiveHighlight.Proofs.CleanBreaks
import LiveHighlight.Proofs.LexingThrough
import LiveHighlight.Proofs.RelexStep

/-! The window of an edit. Lexing after an edit looks at the fewest rows that hold the edit and
cut no region they meet, takes exactly the regions out that meet these rows, and goes on to the end
of the text only if the rows leave a construct open. -/

namespace LiveHighlight

/-- Where the rows of an edit begin. A line break in front of the edit belongs to the row above. -/
def Edit.anchor (edit : Edit) (text : Text) : Nat :=
  if 0 < edit.offset ∧ text[edit.offset - 1]? = some '\n' then edit.offset - 1 else edit.offset

theorem Edit.anchor_le_reach (edit : Edit) (text : Text) : edit.anchor text ≤ edit.reach := by
  have hoffset : edit.offset ≤ edit.reach := by
    unfold reach
    split
    · exact Nat.le_add_right _ _
    · exact Nat.le_refl _
  refine le_trans ?_ hoffset
  unfold anchor
  split
  · exact Nat.sub_le _ _
  · exact Nat.le_refl _

namespace Extent

open Text

theorem Span.Within.antisymm {a b : Span} (h : a.Within b) (h' : b.Within a) : a = b := by
  obtain ⟨start, stop⟩ := a
  obtain ⟨start', stop'⟩ := b
  rw [Span.mk.injEq]
  exact ⟨Nat.le_antisymm h'.1 h.1, Nat.le_antisymm h.2 h'.2⟩

/-- Whole rows of the text after an edit that hold the edit, and both ends of each region that meets
them. The regions are those of the text before the edit. -/
structure Suffices (text : Text) (edit : Edit) (regions : List Region) (span : Span) : Prop
    extends Aligned text span where
  start_le : span.start ≤ text.lineStart (edit.anchor text)
  le_stop : text.lineEnd edit.reach ≤ span.stop
  whole : ∀ r ∈ regions, r.meets span.start (edit.mapBack span.stop) = true →
    OnRows text span (edit.mapForward r.start) ∧ OnRows text span (edit.mapForward r.stop)

theorem edited_eq {text : Text} {edit : Edit} (h : edit.reach ≤ text.length) :
    edited text edit = rowsOf text (edit.anchor text) edit.reach := by
  unfold Edit.reach at h ⊢
  unfold edited Edit.anchor
  cases hkind : edit.kind with
  | insert =>
    simp only [hkind] at h ⊢
    rw [Nat.min_eq_left (Nat.le_of_add_right_le h), Nat.min_eq_left h]
  | remove =>
    simp only [hkind] at h ⊢
    rw [Nat.min_eq_left h]

/-- The rows of an edit suffice if they meet no region. -/
theorem suffices_of_unmet {text : Text} {edit : Edit} {regions : List Region}
    (hreach : edit.reach ≤ text.length)
    (h : ∀ r ∈ regions, r.meets (text.lineStart (edit.anchor text))
      (edit.mapBack (text.lineEnd edit.reach)) = false) :
    Suffices text edit regions (rowsOf text (edit.anchor text) edit.reach) := by
  have hspan : text.lineStart (edit.anchor text) ≤ text.lineEnd edit.reach := by
    calc text.lineStart (edit.anchor text)
      _ ≤ edit.anchor text := lineStart_le text _
      _ ≤ edit.reach := edit.anchor_le_reach text
      _ = min edit.reach text.length := (Nat.min_eq_left hreach).symm
      _ ≤ text.lineEnd edit.reach := le_lineEnd text _
  refine ⟨⟨rowStart_lineStart text _, rowEnd_lineEnd text _, hspan⟩, Nat.le_refl _,
    Nat.le_refl _, ?_⟩
  intro r hr hmeets
  rw [rowsOf, h r hr] at hmeets
  cases hmeets

end Extent

namespace Fragments

/-- What is open after one more fragment. -/
def openPast (pending : Option Unclosed) (f : Placed) : Option Unclosed :=
  match pending with
  | none => some ⟨f.start, f.construct⟩
  | some u => if f.part = .closing then none else some u

theorem derive_cons_ok {pending a : Option Unclosed} {f : Placed} {rest : List Placed}
    {index : RegionIndex} (h : (derive pending (f :: rest) index).result = .ok a) :
    ∃ next, (derive (openPast pending f) rest next).result = .ok a := by
  cases pending with
  | none =>
    rw [derive] at h
    split at h
    · exact ⟨index, h⟩
    · cases h
    · cases h
  | some u =>
    rw [derive] at h
    split_ifs at h
    split at h
    · cases h
    · next hpart =>
      refine ⟨index, ?_⟩
      rw [openPast, if_neg (by rw [hpart]; decide)]
      exact h
    · next hpart =>
      split at h
      · next next _ =>
        refine ⟨next, ?_⟩
        rw [openPast, if_pos hpart]
        exact h
      · cases h

/-- What is left open does not depend on the index that the regions are added to. -/
theorem derive_ok {pending a : Option Unclosed} {fragments : List Placed} {index : RegionIndex}
    (h : (derive pending fragments index).result = .ok a) :
    a = fragments.foldl openPast pending := by
  induction fragments generalizing pending index with
  | nil =>
    rw [derive] at h
    exact (Except.ok.inj h).symm
  | cons f rest ih =>
    obtain ⟨next, hnext⟩ := derive_cons_ok h
    exact ih hnext

end Fragments

namespace Relex

open Text Fragments Constructs Extent

section

variable {reader : Reader LineLexer} {text : Text} {window window' : Window} {state : FileState}

theorem rebuildTail_window (h : (rebuildTail reader text window state).result = .ok window') :
    window' =
      { window with stop := text.length, endRow := text.lineCount - 1, tailRebuilt := true } := by
  unfold rebuildTail at h
  dsimp only at h
  split at h
  · cases h
  · split at h
    · cases h
    · split at h
      · cases h
      · exact (Except.ok.inj h).symm

/-- A window is kept, or runs to the end of the text because a construct is left open. -/
theorem settle_window (h : (settle reader text window state).result = .ok window') :
    ∃ pending, (derive none (ofRows text state.rows) state.regions).result = .ok pending ∧
      window' = if pending ≠ none ∧ window.stop < text.length then
        { window with stop := text.length, endRow := text.lineCount - 1, tailRebuilt := true }
        else window := by
  unfold settle at h
  dsimp only at h
  split at h
  · cases h
  · next hnone =>
    refine ⟨none, hnone, ?_⟩
    rw [if_neg (fun h => h.1 rfl)]
    exact (Except.ok.inj h).symm
  · next u hsome =>
    refine ⟨some u, hsome, ?_⟩
    split_ifs at h with hlast
    · rw [if_neg (fun h => Nat.not_lt.2 hlast h.2)]
      cases hleave : (leaveOpen text u
          (derive none (ofRows text state.rows) state.regions).regions).result with
      | error e =>
        rw [hleave] at h
        cases h
      | ok _ =>
        rw [hleave] at h
        exact (Except.ok.inj h).symm
    · rw [if_pos ⟨Option.some_ne_none u, Nat.not_le.1 hlast⟩]
      exact rebuildTail_window h

end

section

variable {text : Text} {edit : Edit} {index : RegionIndex}

theorem site_suffices (hapart : Apart index.toList) (hreach : edit.reach ≤ text.length) :
    Suffices text edit index.toList (site text edit index) := by
  obtain ⟨hstart, hend, -⟩ := edited_spec text edit
  have hwide := widen_spec edit hapart hstart hend
  have hsite := site_spec text edit hapart
  have hrows := edited_eq hreach
  refine ⟨hsite.toAligned, hwide.start_le.trans_eq (congrArg Span.start hrows),
    (congrArg Span.stop hrows).symm.trans_le hwide.le_stop, ?_⟩
  intro r hr hmeets
  have hmapped := edit.mapForward_mono (hapart.start_lt_stop r hr).le
  exact (hsite.toAligned.rowsOf_within_iff hmapped).1 (hsite.uncut r hr hmeets)

theorem site_least (hapart : Apart index.toList) (hreach : edit.reach ≤ text.length)
    {other : Span} (hother : Suffices text edit index.toList other) :
    (site text edit index).Within other := by
  apply widen_within hapart
  · rw [edited_eq hreach]
    exact ⟨hother.start_le, hother.le_stop⟩
  · intro r hr hmeets
    have hmapped := edit.mapForward_mono (hapart.start_lt_stop r hr).le
    exact (hother.toAligned.rowsOf_within_iff hmapped).2 (hother.whole r hr hmeets)

end

theorem spanOpen_ne_none_iff (text : Text) (span : Span) :
    spanOpen text span ≠ none ↔ Scan.openAtEnd (text.slice span.start span.stop) ≠ none := by
  apply not_congr
  rw [Scan.openAtEnd_eq_carry, carry_eq_none_iff span.start]
  rfl

/-- Settling the rows of a span keeps its window unless they leave a construct open above other
rows. -/
theorem settle_span {reader : Reader LineLexer} {text : Text} {span : Span}
    (hspan : Aligned text span) {index : RegionIndex} {window : Window}
    (h : (settle reader text (windowOf text span) (unsettled text span index)).result =
      .ok window) :
    window = if spanOpen text span ≠ none ∧ span.stop < text.length then
      ⟨span.start, text.length, text.rowAt span.start, text.lineCount - 1, true⟩
      else windowOf text span := by
  obtain ⟨pending, hpending, hwindow⟩ := settle_window h
  -- with no other regions the rows can be derived, and they leave the same construct open
  obtain ⟨next, halone, -⟩ := derive_alone hspan
  have hopen : pending = spanOpen text span :=
    (derive_ok hpending).trans (derive_ok (congrArg Derived.result halone)).symm
  rw [hwindow, hopen]
  rfl

theorem afterEdit_window (reader : Reader LineLexer) {text : Text} {edit : Edit} {state : FileState}
    (hapart : Apart state.regions.toList) {window : Window}
    (h : (afterEdit reader text edit state).result = .ok window) :
    window = if spanOpen text (site text edit state.regions) ≠ none ∧
        (site text edit state.regions).stop < text.length then
      ⟨(site text edit state.regions).start, text.length,
        text.rowAt (site text edit state.regions).start, text.lineCount - 1, true⟩
      else windowOf text (site text edit state.regions) := by
  rw [afterEdit_settles reader text hapart] at h
  dsimp only at h
  split at h
  · next e herror =>
    rw [herror] at h
    cases h
  · next settled hsettled =>
    obtain rfl : settled = window := Except.ok.inj (hsettled.symm.trans h)
    exact settle_span (site_spec text edit hapart).toAligned hsettled

/-- The window of an edit is the least that suffices: the fewest rows that hold the edit and both
ends of each known region that meets them. Exactly these regions are taken out of the index. The
window is kept unless its rows leave a construct open above other rows of the text; then it runs to
the end of the text. If no region meets the rows of the edit, it is just them. -/
theorem afterEdit_window_least (reader : Reader LineLexer) {old text : Text} {edit : Edit}
    (hedit : edit.Applies old text) {state : FileState}
    (hpos : ∀ r ∈ state.regions.toList, r.start < r.stop)
    (hdisjoint : ∀ a ∈ state.regions.toList, ∀ b ∈ state.regions.toList, a ≠ b →
      a.meets b.start b.stop = false) :
    ∃ (span : Span) (left : RegionIndex) (rows : RowBuckets) (reread : Reader LineLexer),
      Suffices text edit state.regions.toList span ∧
      (∀ other, Suffices text edit state.regions.toList other → span.Within other) ∧
      left.toList = state.regions.toList.filter (!·.meets span.start (edit.mapBack span.stop)) ∧
      lexRows reader text span (text.rowAt span.start) (text.rowAt span.stop) =
        (.ok rows, reread) ∧
      (afterEdit reader text edit state).state = (settle reread text (windowOf text span)
        ⟨rows, left.shiftFrom (edit.mapBack span.stop) edit.delta⟩).state ∧
      (∀ window, (afterEdit reader text edit state).result = .ok window →
        window.start = span.start ∧
        window.stop = (if window.tailRebuilt then text.length else span.stop) ∧
        window.startRow = text.rowAt window.start ∧ window.endRow = text.rowAt window.stop ∧
        (window.tailRebuilt = true ↔
          Scan.openAtEnd (text.slice span.start span.stop) ≠ none ∧ span.stop < text.length)) ∧
      ((∀ r ∈ state.regions.toList, r.meets (text.lineStart (edit.anchor text))
          (edit.mapBack (text.lineEnd edit.reach)) = false) →
        span = rowsOf text (edit.anchor text) edit.reach) := by
  have hapart := RegionIndex.apart_of_disjoint hpos hdisjoint
  have hreach := hedit.reach_le
  have hsuffices := site_suffices hapart hreach
  obtain ⟨hstart, hend, -⟩ := edited_spec text edit
  refine ⟨site text edit state.regions, (widen text edit (edited text edit) state.regions).2, _, _,
    hsuffices, fun other => site_least hapart hreach, (widen_spec edit hapart hstart hend).left_eq,
    lexRows_span reader text hsuffices.start_le_stop, ?_, ?_, ?_⟩
  · rw [afterEdit_settles reader text hapart]
    dsimp only
    split <;> rfl
  · intro window hwindow
    have hcases := afterEdit_window reader hapart hwindow
    rw [← spanOpen_ne_none_iff]
    split_ifs at hcases with htail
    · rw [hcases]
      exact ⟨rfl, rfl, rfl, (rowAt_length text).symm, iff_of_true rfl htail⟩
    · rw [hcases]
      exact ⟨rfl, rfl, rfl, rfl, iff_of_false Bool.false_ne_true htail⟩
  · intro hnone
    have hrows := suffices_of_unmet hreach hnone
    exact (site_least hapart hreach hrows).antisymm ⟨hsuffices.start_le, hsuffices.le_stop⟩

/-- A character typed behind the second of two comments that share a row. The first one is met only
after the rows were widened to the second. -/
theorem afterEdit_window_least_chained :
    let text : Text := ['~', ':', '\n', ':', '~', '~', ':', '\n', ':', '~', 'x', '\n', 'a']
    let state : FileState :=
      { regions := ⟨[⟨0, 5, .comment⟩, ⟨5, 10, .comment⟩], by decide⟩ }
    let reader : Reader LineLexer := { lexer := LineLexer.mk }
    (afterEdit reader text ⟨10, 1, .insert⟩ state).result = .ok ⟨0, 11, 0, 2, false⟩ ∧
      Suffices text ⟨10, 1, .insert⟩ state.regions.toList ⟨0, 11⟩ ∧
      ∀ other, Suffices text ⟨10, 1, .insert⟩ state.regions.toList other →
        Span.Within ⟨0, 11⟩ other := by
  intro text state reader
  have hinsert : Edit.Applies ⟨10, 1, .insert⟩
      ['~', ':', '\n', ':', '~', '~', ':', '\n', ':', '~', '\n', 'a'] text :=
    @Edit.Applies.insert ['~', ':', '\n', ':', '~', '~', ':', '\n', ':', '~', '\n', 'a'] 10 ['x']
      (by decide)
  have hresult : (afterEdit reader text ⟨10, 1, .insert⟩ state).result =
      .ok ⟨0, 11, 0, 2, false⟩ := by
    decide +kernel
  obtain ⟨⟨first, last⟩, left, rows, reread, hsuffices, hleast, -, -, -, hwindow, -⟩ :=
    @afterEdit_window_least reader _ text _ hinsert state (by decide) (by decide)
  obtain ⟨rfl, rfl, -⟩ := hwindow _ hresult
  exact ⟨hresult, hsuffices, hleast⟩

end Relex
end LiveHighlight
