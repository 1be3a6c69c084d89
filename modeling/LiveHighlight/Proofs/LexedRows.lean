import Mathlib
import LiveHighlight.Highlight.Relex
import LiveHighlight.Proofs.RowScan

/-! What lexing a range leaves in the row buckets. Statements may run over rows and calls are marked
by statement, but a reference and its bang always stand on one row: the buckets are the scanned rows
with the calls of each row marked on its own. -/

namespace LiveHighlight

theorem Location.eq_of_row_column {a b : Location} (hrow : a.row = b.row)
    (hcolumn : a.column = b.column) : a = b := by
  cases a
  cases b
  simp_all

theorem Location.le_iff (a b : Location) :
    a.le b = true ↔ a.row < b.row ∨ a.row = b.row ∧ a.column ≤ b.column := by
  simp [Location.le]

theorem Location.le_trans {a b c : Location} (hab : a.le b = true) (hbc : b.le c = true) :
    a.le c = true := by
  rw [Location.le_iff] at hab hbc ⊢
  omega

theorem Location.le_total (a b : Location) : (a.le b || b.le a) = true := by
  rw [Bool.or_eq_true, Location.le_iff, Location.le_iff]
  omega

theorem Location.le_antisymm {a b : Location} (hab : a.le b = true) (hba : b.le a = true) :
    a = b := by
  rw [Location.le_iff] at hab hba
  exact Location.eq_of_row_column (by omega) (by omega)

namespace Statement

theorem call_location (t : Token) : (call t).location = t.location := by
  unfold call
  split <;> rfl

theorem call_text (t : Token) : (call t).text = t.text := by
  unfold call
  split <;> rfl

theorem call_fragment (t : Token) : (call t).fragment = t.fragment := by
  unfold call
  split
  · next h => simp [Token.fragment, h]
  · rfl

theorem isInvalid_call (t : Token) : Scan.isInvalid (call t) = Scan.isInvalid t := by
  unfold call
  split
  · next h => simp [Scan.isInvalid, h]
  · rfl

theorem call_of_fragment {t : Token} (h : t.fragment.isSome) : call t = t := by
  unfold call
  split
  · next hkind => simp [Token.fragment, hkind] at h
  · rfl

theorem call_of_comma {t : Token} (h : Scan.isComma t = true) : call t = t := by
  unfold call
  split
  · next hkind => simp [Scan.isComma, hkind] at h
  · rfl

theorem markCalls_cons (t : Token) (rest : List Token) :
    markCalls (t :: rest) = (if rest.head?.any isBang then call t else t) :: markCalls rest := by
  cases rest with
  | nil => rfl
  | cons next rest => rw [markCalls]; rfl

end Statement

namespace Scan

open Statement

/-- The tokens of a row with its calls marked. Invalid tokens between a reference and its bang do
not count. -/
def markRow : List Token → List Token
  | [] => []
  | t :: rest =>
    (if (rest.find? (!isInvalid ·)).any isBang then call t else t) :: markRow rest

theorem markRow_map {α : Type} (f : Token → α) (hf : ∀ t, f (call t) = f t) (tokens : List Token) :
    (markRow tokens).map f = tokens.map f := by
  induction tokens with
  | nil => rfl
  | cons t rest ih =>
    rw [markRow, List.map_cons, List.map_cons, ih]
    split
    · rw [hf]
    · rfl

theorem markRow_onRow (tokens : List Token) (row : Nat) :
    markRow (tokens.map (·.onRow row)) = (markRow tokens).map (·.onRow row) := by
  have hcall (t : Token) : call (t.onRow row) = (call t).onRow row := by
    unfold call Token.onRow
    dsimp only
    split <;> rfl
  induction tokens with
  | nil => rfl
  | cons t rest ih =>
    have hbang : ((rest.map (·.onRow row)).find? (!isInvalid ·)).any isBang =
        (rest.find? (!isInvalid ·)).any isBang := by
      rw [List.find?_map, Option.any_map]
      rfl
    rw [List.map_cons, markRow, markRow, List.map_cons, ih, hcall, hbang]
    split <;> rfl

theorem filter_invalid_markRow (tokens : List Token) :
    (markRow tokens).filter isInvalid = tokens.filter isInvalid := by
  induction tokens with
  | nil => rfl
  | cons t rest ih =>
    rw [markRow]
    by_cases h : isInvalid t
    · have hcall : call t = t := by
        unfold call
        split
        · next hkind => simp [isInvalid, hkind] at h
        · rfl
      rw [hcall, ite_self, List.filter_cons_of_pos h, List.filter_cons_of_pos h, ih]
    · rw [List.filter_cons_of_neg h, List.filter_cons_of_neg, ih]
      split
      · rwa [isInvalid_call]
      · exact h

theorem filter_valid_markRow (tokens : List Token) :
    (markRow tokens).filter (!isInvalid ·) = markCalls (tokens.filter (!isInvalid ·)) := by
  induction tokens with
  | nil => rfl
  | cons t rest ih =>
    rw [markRow]
    by_cases h : isInvalid t
    · rw [List.filter_cons_of_neg (by split <;> simp [isInvalid_call, h]),
        List.filter_cons_of_neg (by simp [h]), ih]
    · rw [List.filter_cons_of_pos (by split <;> simp [isInvalid_call, h]),
        List.filter_cons_of_pos (by simp [h]), markCalls_cons, ih, List.head?_filter]

/-- The tokens of statements with their calls marked, read off the marks one by one. -/
def callMarks : List Mark → List Token
  | [] => []
  | none :: rest => callMarks rest
  | some t :: rest => (if rest.head?.join.any isBang then call t else t) :: callMarks rest

theorem pieces_none (marks : List Mark) :
    pieces Option.isNone (none :: marks) = [] :: pieces Option.isNone marks := by
  simp [pieces]

theorem pieces_some {marks piece : List Mark} {rest : List (List Mark)}
    (h : pieces Option.isNone marks = piece :: rest) (t : Token) :
    pieces Option.isNone (some t :: marks) = (some t :: piece) :: rest := by
  simp [pieces, h]

theorem exists_pieces_eq_cons (marks : List Mark) :
    ∃ piece rest, pieces Option.isNone marks = piece :: rest :=
  List.exists_cons_of_ne_nil (pieces_ne_nil _ _)

theorem head?_piece {marks piece : List Mark} {rest : List (List Mark)}
    (h : pieces Option.isNone marks = piece :: rest) :
    (piece.filterMap id).head? = marks.head?.join := by
  cases marks with
  | nil =>
    obtain ⟨rfl, -⟩ := List.cons.inj h
    rfl
  | cons mark marks =>
    cases mark with
    | none =>
      obtain ⟨rfl, -⟩ := List.cons.inj ((pieces_none marks).symm.trans h)
      rfl
    | some t =>
      obtain ⟨first, others, hpieces⟩ := exists_pieces_eq_cons marks
      obtain ⟨rfl, -⟩ := List.cons.inj ((pieces_some hpieces t).symm.trans h)
      rfl

theorem statements_markCalls (marks : List Mark) :
    ((statements marks).map markCalls).flatten = callMarks marks := by
  have hempty (l : List (List Token)) :
      ((l.filter (!·.isEmpty)).map markCalls).flatten = (l.map markCalls).flatten := by
    induction l with
    | nil => rfl
    | cons s l ih =>
      cases s with
      | nil => simpa [markCalls] using ih
      | cons t s => simpa using ih
  rw [statements, hempty, List.map_map]
  induction marks with
  | nil => rfl
  | cons mark marks ih =>
    cases mark with
    | none =>
      rw [pieces_none, List.map_cons, List.flatten_cons, ih]
      rfl
    | some t =>
      obtain ⟨piece, rest, hpieces⟩ := exists_pieces_eq_cons marks
      rw [hpieces, List.map_cons, List.flatten_cons, Function.comp_apply] at ih
      rw [pieces_some hpieces, List.map_cons, List.flatten_cons, Function.comp_apply,
        List.filterMap_cons_some (rfl : id (some t) = some t), markCalls_cons,
        head?_piece hpieces, List.cons_append, ih, callMarks]

/-- The marks of valid tokens. A comma ends a statement. -/
def tokenMarks (tokens : List Token) : List Mark :=
  tokens.flatMap fun token => if isComma token then [some token, none] else [some token]

theorem head?_tokenMarks_append (tokens : List Token) (rest : List Mark) :
    (tokenMarks tokens ++ rest).head?.join = tokens.head?.or rest.head?.join := by
  cases tokens with
  | nil => simp [tokenMarks]
  | cons t tokens =>
    rw [tokenMarks, List.flatMap_cons]
    split <;> simp

/-- The tokens of a row are marked alike in a statement and alone, if the row ends its statement or
its last token is no reference. -/
theorem callMarks_append (tokens : List Token) (rest : List Mark)
    (hlast : ∀ t, tokens.getLast? = some t → call t = t ∨ rest.head?.join = none) :
    callMarks (tokenMarks tokens ++ rest) = markCalls tokens ++ callMarks rest := by
  induction tokens with
  | nil => rfl
  | cons t tokens ih =>
    have hrest := ih fun last hsome => hlast last (by
      rw [List.getLast?_cons, hsome]
      rfl)
    have hnext : (if (tokenMarks tokens ++ rest).head?.join.any isBang then call t else t) =
        if tokens.head?.any isBang then call t else t := by
      rw [head?_tokenMarks_append]
      cases tokens with
      | cons next tokens => rfl
      | nil =>
        rcases hlast t rfl with hcall | hend
        · simp [hcall]
        · simp [hend]
    rw [markCalls_cons, List.cons_append, ← hrest, ← hnext]
    by_cases hcomma : isComma t
    · rw [call_of_comma hcomma, ite_self]
      simp [tokenMarks, hcomma, callMarks]
    · simp [tokenMarks, hcomma, callMarks]

theorem isInvalid_eq_false {t : Token} (h : t.fragment.isSome) : isInvalid t = false := by
  unfold Token.fragment at h
  split at h
  · next hkind => simp [isInvalid, hkind]
  · simp at h

theorem isSome_of_opened {tokens : List Token} (h : (opened tokens).isSome) :
    ∃ t, tokens.getLast? = some t ∧ t.fragment.isSome := by
  obtain ⟨c, hc⟩ := Option.isSome_iff_exists.1 h
  obtain ⟨t, ht, hopens⟩ := Option.bind_eq_some_iff.1 hc
  rw [Token.opens_eq_some_iff] at hopens
  exact ⟨t, ht, by simp [hopens]⟩

theorem line_getLast_fragment {before : Option Construct} {row : Nat} {text : Text}
    (h : (line before row text).after.isSome) {t : Token}
    (ht : (line before row text).tokens.getLast? = some t) : t.fragment.isSome := by
  cases before with
  | none =>
    obtain ⟨last, hlast, hfragment⟩ := isSome_of_opened h
    rw [line_none] at ht
    rwa [Option.some.inj (ht.symm.trans hlast)]
  | some c =>
    cases hpast : Lexeme.pastPair c.closer text with
    | none =>
      rw [line_middle row hpast] at ht
      dsimp only at ht
      split at ht
      · simp at ht
      · rw [← Option.some.inj ht]
        rfl
    | some n =>
      rw [line_closing row hpast] at h ht
      obtain ⟨last, hlast, hfragment⟩ := isSome_of_opened h
      rw [List.getLast?_cons, hlast] at ht
      rwa [← Option.some.inj ht]

theorem getLast?_filter_valid {tokens : List Token} {t : Token}
    (h : ∀ last, tokens.getLast? = some last → last.fragment.isSome)
    (ht : (tokens.filter (!isInvalid ·)).getLast? = some t) : t.fragment.isSome := by
  rcases List.eq_nil_or_concat tokens with rfl | ⟨front, last, rfl⟩
  · simp at ht
  · have hfragment := h last (by simp)
    rw [List.concat_eq_append, List.filter_append,
      List.filter_cons_of_pos (by simp [isInvalid_eq_false hfragment]), List.filter_nil,
      List.getLast?_concat] at ht
    rwa [← Option.some.inj ht]

theorem callMarks_line (before : Option Construct) (row : Nat) (text : Text) (rest : List Mark) :
    callMarks (marks (line before row text) ++ rest) =
      (markRow (line before row text).tokens).filter (!isInvalid ·) ++ callMarks rest := by
  rw [filter_valid_markRow, marks, List.append_assoc]
  cases hafter : (line before row text).after with
  | none =>
    rw [← tokenMarks, callMarks_append _ _ fun _ _ => .inr rfl]
    rfl
  | some c =>
    rw [← tokenMarks, callMarks_append]
    · rfl
    · intro t ht
      refine .inl (call_of_fragment (getLast?_filter_valid (fun last hlast => ?_) ht))
      exact line_getLast_fragment (by simp [hafter]) hlast

theorem callMarks_lines (before : Option Construct) (row : Nat) (rows : List Text) :
    callMarks ((lines before row rows).flatMap marks) =
      (lines before row rows).flatMap fun l => (markRow l.tokens).filter (!isInvalid ·) := by
  induction rows generalizing before row with
  | nil => rfl
  | cons text rows ih =>
    rw [lines, List.flatMap_cons, List.flatMap_cons, callMarks_line, ih]

/-- The rows of a text as they are put into buckets. -/
def marked (before : Option Construct) (row : Nat) (rows : List Text) : List (List Token) :=
  (lines before row rows).map fun l => markRow l.tokens

theorem marked_cons (before : Option Construct) (row : Nat) (text : Text) (rest : List Text) :
    marked before row (text :: rest) =
      markRow (line before row text).tokens ::
        marked (line before 0 text).after (row + 1) rest := by
  rw [marked, lines_cons, List.map_cons, marked]

theorem marked_append (before : Option Construct) (row : Nat) (rows rest : List Text) :
    marked before row (rows ++ rest) =
      marked before row rows ++ marked (carry before rows) (row + rows.length) rest := by
  rw [marked, lines_append, List.map_append]
  rfl

theorem length_marked (before : Option Construct) (row : Nat) (rows : List Text) :
    (marked before row rows).length = rows.length := by
  rw [marked, List.length_map, length_lines]

theorem lex_valid (text : Text) (row : Nat) :
    ((lex text row).statements.map markCalls).flatten =
      (marked none row text.lines).flatten.filter (!isInvalid ·) := by
  rw [lex, statements_markCalls, callMarks_lines, marked, List.filter_flatten, List.map_map,
    ← List.flatMap_def]
  rfl

theorem lex_invalid (text : Text) (row : Nat) :
    (lex text row).invalid = (marked none row text.lines).flatten.filter isInvalid := by
  rw [lex, marked, List.filter_flatten, List.map_map, ← List.flatMap_def]
  apply List.flatMap_congr
  intro l _
  exact (filter_invalid_markRow l.tokens).symm

/-- Reading order without ties. -/
def Precedes (a b : Token) : Prop :=
  a.location.row < b.location.row ∨
    a.location.row = b.location.row ∧ a.location.column < b.location.column

theorem markRow_laidOut {row low high : Nat} {tokens : List Token}
    (h : LaidOut row low high tokens) : LaidOut row low high (markRow tokens) := by
  have hplace := markRow_map (fun t => (t.location, t.length))
    (fun t => by simp [call_location, Token.length, call_text]) tokens
  have hmem {p : Location × Nat → Prop} (hp : ∀ t ∈ tokens, p (t.location, t.length)) :
      ∀ t ∈ markRow tokens, p (t.location, t.length) := by
    intro t ht
    have hin := List.mem_map_of_mem (f := fun t : Token => (t.location, t.length)) ht
    rw [hplace] at hin
    obtain ⟨t', ht', heq⟩ := List.mem_map.1 hin
    rw [← heq]
    exact hp t' ht'
  refine ⟨hmem (p := fun x => x.1.row = row) h.row_eq, hmem (p := fun x => 0 < x.2) h.length_pos,
    hmem (p := fun x => low ≤ x.1.column) h.low_le,
    hmem (p := fun x => x.1.column + x.2 ≤ high) h.le_high, ?_⟩
  have hapart := h.apart
  rw [← List.pairwise_map (f := fun t : Token => (t.location, t.length))
    (R := fun a b => a.1.column + a.2 ≤ b.1.column)] at hapart ⊢
  rwa [hplace]

theorem mem_marked_row {before : Option Construct} {row : Nat} {rows : List Text} {i : Nat}
    {bucket : List Token} (h : (marked before row rows)[i]? = some bucket) :
    ∀ t ∈ bucket, t.location.row = row + i := by
  induction rows generalizing before row i with
  | nil => simp [marked, lines] at h
  | cons text rows ih =>
    rw [marked_cons] at h
    cases i with
    | zero =>
      obtain rfl : _ = bucket := by simpa using h
      exact (markRow_laidOut (line_laidOut before row text)).row_eq
    | succ i =>
      intro t ht
      rw [ih (by simpa using h) t ht]
      omega

theorem mem_flatten_marked_row {before : Option Construct} {row : Nat} {rows : List Text}
    {t : Token} (h : t ∈ (marked before row rows).flatten) :
    row ≤ t.location.row ∧ t.location.row < row + rows.length := by
  obtain ⟨bucket, hbucket, ht⟩ := List.mem_flatten.1 h
  obtain ⟨i, hi⟩ := List.mem_iff_getElem?.1 hbucket
  have hlt := (List.getElem?_eq_some_iff.1 hi).1
  rw [length_marked] at hlt
  rw [mem_marked_row hi t ht]
  omega

theorem LaidOut.precedes {row low high : Nat} {tokens : List Token}
    (h : LaidOut row low high tokens) : tokens.Pairwise Precedes := by
  refine h.apart.imp_of_mem fun {a b} ha hb hab => ?_
  have hpos := h.length_pos a ha
  exact .inr ⟨(h.row_eq a ha).trans (h.row_eq b hb).symm, by omega⟩

theorem marked_precedes (before : Option Construct) (row : Nat) (rows : List Text) :
    (marked before row rows).flatten.Pairwise Precedes := by
  induction rows generalizing before row with
  | nil => exact List.Pairwise.nil
  | cons text rows ih =>
    have hrow := markRow_laidOut (line_laidOut before row text)
    rw [marked_cons, List.flatten_cons]
    refine List.pairwise_append.2 ⟨hrow.precedes, ih _ _, fun a ha b hb => .inl ?_⟩
    have hlow := (mem_flatten_marked_row hb).1
    rw [hrow.row_eq a ha]
    omega

end Scan

namespace RowBuckets

open Scan

theorem le_of_precedes {a b : Token} (h : Precedes a b) : a.location.le b.location = true := by
  rcases h with h | ⟨hrow, hcolumn⟩
  · simp [Location.le, h]
  · simp [Location.le, hrow, Nat.le_of_lt hcolumn]

theorem mergeSort_sorted (tokens : List Token) :
    (tokens.mergeSort fun a b => a.location.le b.location).Pairwise
      fun a b => a.location.le b.location = true := by
  refine List.pairwise_mergeSort ?_ (fun a b => Location.le_total a.location b.location) tokens
  intro a b c hab hbc
  exact Location.le_trans hab hbc

theorem mergeSort_precedes {tokens sorted : List Token} (hperm : tokens.Perm sorted)
    (hsorted : sorted.Pairwise Precedes) :
    tokens.mergeSort (fun a b => a.location.le b.location) = sorted := by
  have hnodup : (sorted.map (·.location)).Nodup := by
    refine List.pairwise_map.2 (hsorted.imp fun {a b} hab heq => ?_)
    rw [Precedes, heq] at hab
    omega
  refine List.Perm.eq_of_pairwise ?_
    (mergeSort_sorted tokens) (hsorted.imp le_of_precedes)
    ((List.mergeSort_perm tokens _).trans hperm)
  intro a b ha hb hab hba
  apply List.inj_on_of_nodup_map hnodup (hperm.subset (List.mem_mergeSort.1 ha)) hb
  exact Location.le_antisymm hab hba

/-- Merging finds the reading order from which valid and invalid tokens were taken. -/
theorem merge_filter {tokens : List Token} (h : tokens.Pairwise Precedes) :
    merge (tokens.filter (!isInvalid ·)) (tokens.filter isInvalid) = tokens := by
  unfold merge
  split
  · next hnone =>
    refine List.filter_eq_self.2 fun t ht => ?_
    have hvalid := List.filter_eq_nil_iff.1 hnone t ht
    simpa using hvalid
  · refine mergeSort_precedes ?_ h
    have hperm := List.filter_append_perm (!isInvalid ·) tokens
    simpa using hperm

theorem foldr_push (startRow n : Nat) (tokens : List Token) :
    tokens.foldr (push startRow) (.replicate n []) =
      (List.range n).map fun i => tokens.filter (·.location.row - startRow = i) := by
  induction tokens with
  | nil => simp [List.map_const']
  | cons t tokens ih =>
    rw [List.foldr_cons, ih, push]
    apply List.ext_getElem?
    intro i
    rw [List.getElem?_modify, List.getElem?_map, List.getElem?_map]
    cases h : (List.range n)[i]? with
    | none => rfl
    | some j =>
      obtain ⟨hlt, rfl⟩ := List.getElem?_eq_some_iff.1 h
      rw [List.getElem_range]
      by_cases hrow : t.location.row - startRow = i
      · simp [hrow]
      · simp [hrow]

theorem filter_flatten_eq {α : Type} (key : α → Nat) (lists : List (List α)) (k : Nat)
    (h : ∀ i l, lists[i]? = some l → ∀ a ∈ l, key a = k + i) (i : Nat) :
    lists.flatten.filter (key · = k + i) = lists.getD i [] := by
  induction lists generalizing k i with
  | nil => simp
  | cons l lists ih =>
    have hfirst : ∀ a ∈ l, key a = k := h 0 l rfl
    have hrest := ih (k + 1) fun j l' hj a ha => by
      rw [h (j + 1) l' (by simpa using hj) a ha]
      omega
    rw [List.flatten_cons, List.filter_append]
    cases i with
    | zero =>
      have hnone : lists.flatten.filter (key · = k + 0) = [] := by
        refine List.filter_eq_nil_iff.2 fun a ha => ?_
        obtain ⟨l', hl', hal'⟩ := List.mem_flatten.1 ha
        obtain ⟨j, hj⟩ := List.mem_iff_getElem?.1 hl'
        have hkey := h (j + 1) l' (by simpa using hj) a hal'
        simp only [decide_eq_true_eq]
        omega
      rw [hnone, List.append_nil, List.getD_cons_zero]
      exact List.filter_eq_self.2 fun a ha => by simp [hfirst a ha]
    | succ i =>
      have hnone : l.filter (key · = k + (i + 1)) = [] := by
        refine List.filter_eq_nil_iff.2 fun a ha => ?_
        have hkey := hfirst a ha
        simp only [decide_eq_true_eq]
        omega
      rw [hnone, List.nil_append, List.getD_cons_succ, ← hrest i]
      congr 1
      funext a
      congr 1
      rw [Nat.add_right_comm, Nat.add_assoc]

theorem ofTokens_marked (startRow : Nat) (rows : List Text) (hrows : rows ≠ []) :
    ofTokens ((marked none startRow rows).flatten.filter (!isInvalid ·))
        ((marked none startRow rows).flatten.filter isInvalid) startRow
        (startRow + (rows.length - 1)) =
      .ok ⟨startRow, marked none startRow rows⟩ := by
  have hlen := List.length_pos_iff.2 hrows
  unfold ofTokens
  rw [merge_filter (marked_precedes none startRow rows)]
  dsimp only
  split
  · next hone =>
    obtain ⟨row, rfl⟩ : ∃ row, rows = [row] := List.length_eq_one_iff.1 (by omega)
    simp [marked, lines]
  · next hmany =>
    have hstray : (marked none startRow rows).flatten.find? (fun t =>
        decide (t.location.row < startRow) ||
          decide (startRow + (rows.length - 1) < t.location.row)) = none := by
      refine List.find?_eq_none.2 fun t ht => ?_
      have hrow := mem_flatten_marked_row ht
      simp only [Bool.or_eq_true, decide_eq_true_eq]
      omega
    rw [hstray]
    dsimp only
    congr 2
    -- bucket by bucket: the tokens of a row are those with its number, in their order
    rw [foldr_push]
    apply List.ext_getElem?
    intro i
    have hkey := filter_flatten_eq (fun t : Token => t.location.row - startRow)
      (marked none startRow rows) 0 (fun j l hj a ha => by
        rw [mem_marked_row hj a ha]
        omega) i
    rw [List.getElem?_map]
    rcases Nat.lt_or_ge i rows.length with hi | hi
    · have hget : (marked none startRow rows)[i]? =
          some ((marked none startRow rows).getD i []) := by
        rw [List.getD_eq_getElem?_getD, List.getElem?_eq_getElem (by rwa [length_marked])]
        rfl
      rw [List.getElem?_range (by omega), hget, ← hkey, Nat.zero_add]
      rfl
    · rw [List.getElem?_eq_none (by rw [List.length_range]; omega),
        List.getElem?_eq_none (by rwa [length_marked])]
      rfl

end RowBuckets

namespace Relex

open Extent

/-- Lexing a range that ends rows where it should gives the marked rows of the range. -/
theorem lexRows_eq (reader : Reader LineLexer) (text : Text) (span : Span) (startRow endRow : Nat)
    (hrows : endRow = startRow + ((text.slice span.start span.stop).lines.length - 1)) :
    lexRows reader text span startRow endRow =
      (.ok ⟨startRow, Scan.marked none startRow (text.slice span.start span.stop).lines⟩,
        (reader.read (text.slice span.start span.stop) startRow).2) := by
  subst hrows
  have htokens : (reader.read (text.slice span.start span.stop) startRow).1.tokens =
      ((Scan.lex (text.slice span.start span.stop) startRow).statements.map
        Statement.markCalls).flatten := rfl
  have hinvalid : (reader.read (text.slice span.start span.stop) startRow).1.invalid =
      (Scan.lex (text.slice span.start span.stop) startRow).invalid := rfl
  rw [lexRows]
  dsimp only
  rw [htokens, hinvalid, Scan.lex_valid, Scan.lex_invalid,
    RowBuckets.ofTokens_marked _ _ (Text.lines_ne_nil _)]

end Relex
end LiveHighlight
