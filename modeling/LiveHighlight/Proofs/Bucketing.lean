import Mathlib
import LiveHighlight.Proofs.TokenStyles

/-! Tokens put into the buckets of their rows. Every token goes into one bucket and keeps its place
among the tokens of its row, or it lies outside of the window and is named. The tokens of a text
never do, and in each of their buckets one ends before the next one starts. -/

namespace LiveHighlight

/-- The tokens of a list in reading order. Those at the same place keep the order they had. -/
structure StablySorted (input output : List Token) : Prop where
  perm : output.Perm input
  sorted : output.Pairwise fun a b => a.location.le b.location = true
  stable : ∀ place, output.filter (·.location = place) = input.filter (·.location = place)

/-- The row of a token is one of the rows of a window. -/
def Token.Within (token : Token) (startRow endRow : Nat) : Prop :=
  startRow ≤ token.location.row ∧ token.location.row ≤ endRow

instance (token : Token) (startRow endRow : Nat) : Decidable (token.Within startRow endRow) :=
  inferInstanceAs (Decidable (_ ∧ _))

/-- Lists in reading order are equal if they have the same tokens at each place, in the same
order. -/
theorem eq_of_filter_location {a b : List Token}
    (ha : a.Pairwise fun s t => s.location.le t.location = true)
    (hb : b.Pairwise fun s t => s.location.le t.location = true)
    (h : ∀ place, a.filter (·.location = place) = b.filter (·.location = place)) : a = b := by
  induction a generalizing b with
  | nil =>
    refine (List.eq_nil_iff_forall_not_mem.2 fun t ht => ?_).symm
    have hmem : t ∈ b.filter (·.location = t.location) := List.mem_filter.2 ⟨ht, by simp⟩
    rw [← h t.location] at hmem
    cases hmem
  | cons s a ih =>
    have hmem {t : Token} : t ∈ s :: a ↔ t ∈ b := by
      have hplace := congrArg (t ∈ ·) (h t.location)
      simpa only [List.mem_filter, decide_true, and_true, eq_iff_iff] using hplace
    cases b with
    | nil => exact absurd (hmem.1 List.mem_cons_self) List.not_mem_nil
    | cons t b =>
      obtain ⟨hfirst, hrest⟩ := List.pairwise_cons.1 ha
      obtain ⟨hfirst', hrest'⟩ := List.pairwise_cons.1 hb
      -- each of the first tokens comes no later than the other one, so they stand at one place
      have hplace : s.location = t.location := by
        rcases List.mem_cons.1 (hmem.1 List.mem_cons_self) with rfl | hs
        · rfl
        · rcases List.mem_cons.1 (hmem.2 List.mem_cons_self) with rfl | ht
          · rfl
          · exact Location.le_antisymm (hfirst t ht) (hfirst' s hs)
      have hhead := h s.location
      rw [List.filter_cons_of_pos (by simp), List.filter_cons_of_pos (by simp [hplace])] at hhead
      obtain ⟨rfl, -⟩ := List.cons.inj hhead
      rw [ih hrest hrest' fun place => ?_]
      have hall := h place
      by_cases hs : s.location = place
      · rw [List.filter_cons_of_pos (by simpa using hs),
          List.filter_cons_of_pos (by simpa using hs)] at hall
        exact (List.cons.inj hall).2
      · rwa [List.filter_cons_of_neg (by simpa using hs),
          List.filter_cons_of_neg (by simpa using hs)] at hall

theorem stablySorted_mergeSort (input : List Token) :
    StablySorted input (input.mergeSort fun a b => a.location.le b.location) := by
  have hperm := List.mergeSort_perm input fun a b => a.location.le b.location
  refine ⟨hperm, RowBuckets.mergeSort_sorted input, fun place => ?_⟩
  have hequal : (input.filter (·.location = place)).Pairwise
      fun a b => a.location.le b.location = true := by
    refine List.pairwise_of_forall_mem_list fun a ha b hb => ?_
    have hplace : a.location = b.location := by
      simp only [List.mem_filter, decide_eq_true_eq] at ha hb
      rw [ha.2, hb.2]
    rw [hplace, Location.le_iff]
    exact .inr ⟨rfl, Nat.le_refl _⟩
  have hsub : (input.filter (·.location = place)).Sublist
      (input.mergeSort fun a b => a.location.le b.location) := by
    refine List.sublist_mergeSort ?_ (fun a b => Location.le_total a.location b.location) hequal
      List.filter_sublist
    intro a b c hab hbc
    exact Location.le_trans hab hbc
  have hsame := hsub.filter (·.location = place)
  rw [List.filter_filter] at hsame
  simp only [Bool.and_self] at hsame
  exact (hsame.eq_of_length (hperm.filter _).length_eq.symm).symm

theorem stablySorted_iff (input order : List Token) :
    StablySorted input order ↔ order = input.mergeSort fun a b => a.location.le b.location := by
  constructor
  · intro h
    refine eq_of_filter_location h.sorted (RowBuckets.mergeSort_sorted input) fun place => ?_
    rw [h.stable, (stablySorted_mergeSort input).stable]
  · rintro rfl
    exact stablySorted_mergeSort input

namespace RowBuckets

open Scan

variable {tokens invalid : List Token} {startRow endRow : Nat}

theorem merge_perm (tokens invalid : List Token) :
    (merge tokens invalid).Perm (tokens ++ invalid) := by
  unfold merge
  split
  · next hnone => rw [hnone, List.append_nil]
  · exact List.mergeSort_perm _ _

/-- A token that is pushed is in the buckets once more, and nothing else has changed. -/
theorem flatten_push {rows : List (List Token)} {t : Token}
    (h : t.location.row - startRow < rows.length) :
    (push startRow t rows).flatten.Perm (t :: rows.flatten) := by
  have hsplit : rows.flatten = (rows.take (t.location.row - startRow)).flatten ++
      (rows[t.location.row - startRow] ++
        (rows.drop (t.location.row - startRow + 1)).flatten) := by
    rw [← List.flatten_cons, ← List.flatten_append, List.cons_getElem_drop_succ,
      List.take_append_drop]
  rw [push, List.modify_eq_take_cons_drop h, List.flatten_append, List.flatten_cons,
    List.cons_append, hsplit]
  exact List.perm_middle

theorem flatten_foldr_push {count : Nat}
    (h : ∀ t ∈ tokens, t.location.row - startRow < count) :
    (tokens.foldr (push startRow) (.replicate count [])).flatten.Perm tokens := by
  induction tokens with
  | nil => simp
  | cons t tokens ih =>
    have hrest := ih fun s hs => h s (List.mem_cons_of_mem _ hs)
    rw [List.foldr_cons]
    refine (flatten_push ?_).trans (hrest.cons t)
    rw [foldr_push, List.length_map, List.length_range]
    exact h t List.mem_cons_self

/-- The buckets of a number of rows, each with the tokens of its row. -/
def byRow (startRow count : Nat) (tokens : List Token) : List (List Token) :=
  (List.range count).map fun i => tokens.filter (·.location.row = startRow + i)

theorem foldr_push_eq_byRow (count : Nat) (h : ∀ t ∈ tokens, startRow ≤ t.location.row) :
    tokens.foldr (push startRow) (.replicate count []) = byRow startRow count tokens := by
  rw [foldr_push, byRow]
  refine List.map_congr_left fun i _ => List.filter_congr fun t ht => ?_
  rw [decide_eq_decide, Nat.sub_eq_iff_eq_add' (h t ht)]

theorem byRow_perm {count : Nat}
    (h : ∀ t ∈ tokens, startRow ≤ t.location.row ∧ t.location.row < startRow + count) :
    (byRow startRow count tokens).flatten.Perm tokens := by
  rw [← foldr_push_eq_byRow count fun t ht => (h t ht).1]
  exact flatten_foldr_push fun t ht => Nat.sub_lt_left_of_lt_add (h t ht).1 (h t ht).2

/-- If no token lies outside of the rows, the buckets are those of the tokens in reading order. This
is so for a window of one row as well, where nobody looks at the rows of the tokens. -/
theorem ofTokens_within {count : Nat} (hcount : 0 < count)
    (h : ∀ t ∈ merge tokens invalid,
      startRow ≤ t.location.row ∧ t.location.row < startRow + count) :
    ofTokens tokens invalid startRow (startRow + (count - 1)) =
      .ok ⟨startRow, byRow startRow count (merge tokens invalid)⟩ := by
  unfold ofTokens
  dsimp only
  split_ifs with hone
  · obtain rfl : count = 1 := by omega
    have hall : (merge tokens invalid).filter (·.location.row = startRow + 0) =
        merge tokens invalid := by
      refine List.filter_eq_self.2 fun t ht => ?_
      have hrow := h t ht
      exact decide_eq_true (by omega)
    rw [byRow, List.range_one, List.map_singleton, hall]
  · have hnone : (merge tokens invalid).find? (fun t =>
        decide (t.location.row < startRow) ||
          decide (startRow + (count - 1) < t.location.row)) = none := by
      refine List.find?_eq_none.2 fun t ht => ?_
      have hrow := h t ht
      simp only [Bool.or_eq_true, decide_eq_true_eq]
      omega
    rw [hnone]
    dsimp only
    rw [Nat.add_sub_cancel_left, Nat.sub_add_cancel hcount,
      foldr_push_eq_byRow count fun t ht => (h t ht).1]

/-- The first token outside of the rows is the one that is named. -/
theorem ofTokens_stray (hrows : startRow < endRow) {before after : List Token} {stray : Token}
    (hall : merge tokens invalid = before ++ stray :: after)
    (hbefore : ∀ t ∈ before, t.Within startRow endRow)
    (hstray : ¬ stray.Within startRow endRow) :
    ofTokens tokens invalid startRow endRow =
      .error (.tokenOutsideWindow stray.location startRow endRow) := by
  have houtside (t : Token) :
      (decide (t.location.row < startRow) || decide (endRow < t.location.row)) = true ↔
        ¬ t.Within startRow endRow := by
    simp only [Bool.or_eq_true, decide_eq_true_eq, Token.Within]
    omega
  have hfind : (merge tokens invalid).find? (fun t =>
      decide (t.location.row < startRow) || decide (endRow < t.location.row)) = some stray := by
    refine List.find?_eq_some_iff_append.2 ⟨(houtside stray).2 hstray, before, after, hall, ?_⟩
    intro t ht
    rw [Bool.not_eq_true', Bool.eq_false_iff, ne_eq, houtside, not_not]
    exact hbefore t ht
  unfold ofTokens
  dsimp only
  rw [if_neg (Nat.not_le.2 hrows), hfind]

/-- Either every token lies on the rows of the window, or there is a first one that does not. -/
theorem ofTokens_cases (tokens invalid : List Token) (hrows : startRow < endRow) :
    (∀ t ∈ merge tokens invalid, t.Within startRow endRow) ∧
        ofTokens tokens invalid startRow endRow =
          .ok ⟨startRow, byRow startRow (endRow - startRow + 1) (merge tokens invalid)⟩ ∨
      ∃ before stray after, merge tokens invalid = before ++ stray :: after ∧
        (∀ t ∈ before, t.Within startRow endRow) ∧ ¬ stray.Within startRow endRow ∧
        ofTokens tokens invalid startRow endRow =
          .error (.tokenOutsideWindow stray.location startRow endRow) := by
  cases hfind : (merge tokens invalid).find? fun t => ¬ t.Within startRow endRow with
  | none =>
    have hall : ∀ t ∈ merge tokens invalid, t.Within startRow endRow := fun t ht => by
      simpa using List.find?_eq_none.1 hfind t ht
    have hcount : startRow + (endRow - startRow + 1 - 1) = endRow := by omega
    refine .inl ⟨hall, ?_⟩
    rw [← ofTokens_within (Nat.succ_pos _) fun t ht => ?_, hcount]
    have hrow := hall t ht
    rw [Token.Within] at hrow
    omega
  | some stray =>
    obtain ⟨hstray, before, after, hall, hbefore⟩ := List.find?_eq_some_iff_append.1 hfind
    have hinside : ∀ t ∈ before, t.Within startRow endRow := fun t ht => by
      simpa using hbefore t ht
    exact .inr ⟨before, stray, after, hall, hinside, of_decide_eq_true hstray,
      ofTokens_stray hrows hall hinside (of_decide_eq_true hstray)⟩

theorem ofTokens_eq_ok (hrows : startRow < endRow) {buckets : RowBuckets}
    (h : ofTokens tokens invalid startRow endRow = .ok buckets) :
    (∀ t ∈ merge tokens invalid, t.Within startRow endRow) ∧
      buckets = ⟨startRow, byRow startRow (endRow - startRow + 1) (merge tokens invalid)⟩ := by
  rcases ofTokens_cases tokens invalid hrows with ⟨hall, hok⟩ | ⟨_, _, _, -, -, -, herror⟩
  · exact ⟨hall, (Except.ok.inj (hok.symm.trans h)).symm⟩
  · rw [herror] at h
    cases h

theorem ofTokens_eq_error (hrows : startRow < endRow) {e : HighlightError}
    (h : ofTokens tokens invalid startRow endRow = .error e) :
    ∃ before stray after, merge tokens invalid = before ++ stray :: after ∧
      (∀ t ∈ before, t.Within startRow endRow) ∧ ¬ stray.Within startRow endRow ∧
      e = .tokenOutsideWindow stray.location startRow endRow := by
  rcases ofTokens_cases tokens invalid hrows with
    ⟨-, hok⟩ | ⟨before, stray, after, hall, hbefore, hstray, herror⟩
  · rw [hok] at h
    cases h
  · rw [herror] at h
    cases h
    exact ⟨before, stray, after, hall, hbefore, hstray, rfl⟩

theorem ofTokens_ok_iff (tokens invalid : List Token) (hrows : startRow < endRow) :
    (∃ buckets, ofTokens tokens invalid startRow endRow = .ok buckets) ↔
      ∀ t ∈ tokens ++ invalid, t.Within startRow endRow := by
  have hperm := merge_perm tokens invalid
  constructor
  · rintro ⟨buckets, hok⟩ t ht
    exact (ofTokens_eq_ok hrows hok).1 t (hperm.mem_iff.2 ht)
  · intro hall
    cases hresult : ofTokens tokens invalid startRow endRow with
    | ok buckets => exact ⟨buckets, rfl⟩
    | error e =>
      obtain ⟨before, stray, after, hsplit, -, hstray, -⟩ := ofTokens_eq_error hrows hresult
      have hmem : stray ∈ merge tokens invalid := by
        rw [hsplit]
        exact List.mem_append_right _ List.mem_cons_self
      exact absurd (hall stray (hperm.mem_iff.1 hmem)) hstray

theorem byRow_getElem? (startRow : Nat) {count i : Nat} (tokens : List Token) (hi : i < count) :
    (byRow startRow count tokens)[i]? =
      some (tokens.filter (·.location.row = startRow + i)) := by
  rw [byRow, List.getElem?_map, List.getElem?_range hi]
  rfl

theorem length_byRow (startRow count : Nat) (tokens : List Token) :
    (byRow startRow count tokens).length = count := by
  rw [byRow, List.length_map, List.length_range]

/-- Where tokens end before those behind them start, they do so in each bucket. -/
theorem byRow_apart {count : Nat} (hends : tokens.Pairwise EndsBefore)
    (hpos : ∀ t ∈ tokens, 0 < t.length) {i : Nat} {bucket : List Token}
    (h : (byRow startRow count tokens)[i]? = some bucket) :
    (∀ t ∈ bucket, t.location.row = startRow + i) ∧
      bucket.Pairwise fun a b => a.location.column < b.location.column ∧
        a.location.column + a.length ≤ b.location.column := by
  have hi := (List.getElem?_eq_some_iff.1 h).1
  rw [length_byRow] at hi
  obtain rfl := Option.some.inj ((byRow_getElem? startRow tokens hi).symm.trans h)
  have hrow : ∀ t ∈ tokens.filter (·.location.row = startRow + i),
      t.location.row = startRow + i := fun t ht => by simpa using (List.mem_filter.1 ht).2
  refine ⟨hrow, (hends.filter _).imp_of_mem fun {a b} ha hb hab => ?_⟩
  have hlength := hpos a (List.mem_filter.1 ha).1
  rcases hab with hlt | ⟨-, hcolumn⟩
  · exact absurd hlt (by rw [hrow a ha, hrow b hb]; exact Nat.lt_irrefl _)
  · exact ⟨(Nat.lt_add_of_pos_right hlength).trans_le hcolumn, hcolumn⟩

end RowBuckets

namespace Scan

/-- The valid tokens of a text, as they are scanned or with their calls marked. -/
inductive Reads (text : Text) (row : Nat) (valid : List Token) : Prop
  | scanned (h : valid = (lex text row).tokens)
  | parsed (parser : Statement.Parser)
    (h : valid = (parser.parse (lex text row).statements).1.flatten)

namespace Reads

variable {text : Text} {row : Nat} {valid : List Token} {t : Token}

/-- Marking calls changes neither where a token stands nor how long it is. -/
theorem places (h : Reads text row valid) :
    (RowBuckets.merge valid (lex text row).invalid).map (fun t => (t.location, t.length)) =
      (Scan.scanned none row text.lines).map fun t => (t.location, t.length) := by
  cases h with
  | scanned h => rw [h, merge_lex]
  | parsed parser h =>
    rw [h, Statement.Parser.parse, lex_valid, lex_invalid,
      RowBuckets.merge_filter (marked_precedes none row text.lines)]
    refine map_flatten_marked _ (fun t => ?_) none row text.lines
    rw [Statement.call_location, Token.length, Statement.call_text, Token.length]

theorem exists_scanned (h : Reads text row valid)
    (ht : t ∈ RowBuckets.merge valid (lex text row).invalid) :
    ∃ s ∈ Scan.scanned none row text.lines, s.location = t.location ∧ s.length = t.length := by
  have hplace := List.mem_map_of_mem (f := fun t : Token => (t.location, t.length)) ht
  rw [h.places] at hplace
  obtain ⟨s, hs, heq⟩ := List.mem_map.1 hplace
  exact ⟨s, hs, congrArg Prod.fst heq, congrArg Prod.snd heq⟩

theorem endsBefore (h : Reads text row valid) :
    (RowBuckets.merge valid (lex text row).invalid).Pairwise EndsBefore := by
  have hends : ((Scan.scanned none row text.lines).map fun t => (t.location, t.length)).Pairwise
      fun a b => a.1.row < b.1.row ∨ a.1.row = b.1.row ∧ a.1.column + a.2 ≤ b.1.column :=
    List.pairwise_map.2 (scanned_endsBefore none row text.lines)
  rw [← h.places, List.pairwise_map] at hends
  exact hends

theorem row_bounds (h : Reads text row valid)
    (ht : t ∈ RowBuckets.merge valid (lex text row).invalid) :
    row ≤ t.location.row ∧ t.location.row < row + text.lineCount := by
  obtain ⟨s, hs, hplace, -⟩ := h.exists_scanned ht
  obtain ⟨line, hline, -⟩ := exists_line_of_scanned hs
  have hlt := (List.getElem?_eq_some_iff.1 hline).1
  have hle := scanned_row hs
  rw [Text.length_lines] at hlt
  rw [← hplace]
  exact ⟨hle, (Nat.sub_lt_iff_lt_add' hle).1 hlt⟩

theorem length_pos (h : Reads text row valid)
    (ht : t ∈ RowBuckets.merge valid (lex text row).invalid) : 0 < t.length := by
  obtain ⟨s, hs, -, hlength⟩ := h.exists_scanned ht
  rw [← hlength]
  exact scanned_length_pos hs

end Reads
end Scan

namespace RowBuckets

open Scan

/-- The tokens of a text fill one bucket for each of its rows. -/
theorem ofTokens_reads {text : Text} {row : Nat} {valid : List Token} (h : Reads text row valid) :
    ∃ buckets,
      ofTokens valid (lex text row).invalid row (row + (text.lineCount - 1)) = .ok buckets ∧
      buckets.rows.length = text.lineCount ∧
      ∀ i bucket, buckets.rows[i]? = some bucket →
        (∀ t ∈ bucket, t.location.row = row + i) ∧
          bucket.Pairwise fun a b => a.location.column < b.location.column ∧
            a.location.column + a.length ≤ b.location.column := by
  refine ⟨_, ofTokens_within (Nat.succ_pos _) fun t ht => h.row_bounds ht, length_byRow _ _ _, ?_⟩
  intro i bucket hbucket
  exact byRow_apart h.endsBefore (fun t ht => h.length_pos ht) hbucket

/-- Tokens are put into the buckets of their rows exactly if all of them lie on the rows of the
window, and else the first one that does not is named. The bucket of a row has the tokens of that
row in the order they came in, or in reading order if there are invalid ones to be merged, so that
no token is lost or there twice. With the tokens of a text this never fails, and in each bucket they
stand one behind the other. -/
theorem ofTokens_sorts_by_row (tokens invalid : List Token) {startRow endRow : Nat}
    (hrows : startRow < endRow) :
    let all := merge tokens invalid
    (invalid = [] → all = tokens) ∧
      (invalid ≠ [] → ∀ order, StablySorted (tokens ++ invalid) order ↔ order = all) ∧
      ((∃ buckets, ofTokens tokens invalid startRow endRow = .ok buckets) ↔
        ∀ t ∈ tokens ++ invalid, t.Within startRow endRow) ∧
      (∀ buckets, ofTokens tokens invalid startRow endRow = .ok buckets →
        buckets.startRow = startRow ∧
        buckets.rows.length = endRow - startRow + 1 ∧
        (∀ row, startRow ≤ row → row ≤ endRow →
          buckets.rows[row - startRow]? = some (all.filter (·.location.row = row))) ∧
        buckets.rows.flatten.Perm (tokens ++ invalid)) ∧
      (∀ e, ofTokens tokens invalid startRow endRow = .error e →
        ∃ before stray after, all = before ++ stray :: after ∧
          (∀ t ∈ before, t.Within startRow endRow) ∧ ¬ stray.Within startRow endRow ∧
          e = .tokenOutsideWindow stray.location startRow endRow) ∧
      ∀ (lexer : LineLexer) (text : Text) (row : Nat) (valid : List Token),
        let output := (Lexer.lex lexer text row).1
        valid = output.tokens ∨ (∃ parser : Statement.Parser,
          valid = (parser.parse output.statements).1.flatten) →
        ∃ buckets, ofTokens valid output.invalid row (row + (text.lineCount - 1)) = .ok buckets ∧
          buckets.rows.length = text.lineCount ∧
          ∀ i bucket, buckets.rows[i]? = some bucket →
            (∀ t ∈ bucket, t.location.row = row + i) ∧
              bucket.Pairwise fun a b => a.location.column < b.location.column ∧
                a.location.column + a.length ≤ b.location.column := by
  intro all
  refine ⟨fun hnone => if_pos hnone, fun hsome order => ?_, ofTokens_ok_iff tokens invalid hrows,
    fun buckets hok => ?_, fun e => ofTokens_eq_error hrows, ?_⟩
  · rw [stablySorted_iff, show all = _ from if_neg hsome]
  · obtain ⟨hall, rfl⟩ := ofTokens_eq_ok hrows hok
    refine ⟨rfl, length_byRow _ _ _, fun row hfrom hto => ?_, ?_⟩
    · rw [byRow_getElem? startRow _ (by omega), Nat.add_sub_cancel' hfrom]
    · refine (byRow_perm fun t ht => ?_).trans (merge_perm tokens invalid)
      have hrow := hall t ht
      rw [Token.Within] at hrow
      omega
  · intro lexer text row valid output hvalid
    rcases hvalid with hvalid | ⟨parser, hvalid⟩
    · exact ofTokens_reads (.scanned hvalid)
    · exact ofTokens_reads (.parsed parser hvalid)

/-- Tokens that come in late and an invalid one at the place of a valid one: the valid one comes
first. A row without tokens has its bucket. -/
theorem ofTokens_sorts_by_row_merged :
    let late : Token := ⟨.number, ['1'], ⟨6, 0⟩⟩
    let early : Token := ⟨.number, ['2'], ⟨4, 3⟩⟩
    let twin : Token := ⟨.invalid, ['2'], ⟨4, 3⟩⟩
    let first : Token := ⟨.invalid, ['3'], ⟨4, 0⟩⟩
    ∃ buckets, ofTokens [late, early] [twin, first] 4 6 = .ok buckets ∧
      buckets.rows = [[first, early, twin], [], [late]] ∧
      buckets.rows.flatten.Perm [late, early, twin, first] := by
  intro late early twin first
  have hok : ofTokens [late, early] [twin, first] 4 6 =
      .ok ⟨4, [[first, early, twin], [], [late]]⟩ := by cbv
  have hsorts := ofTokens_sorts_by_row [late, early] [twin, first] (by decide : 4 < 6)
  exact ⟨_, hok, rfl, (hsorts.2.2.2.1 _ hok).2.2.2⟩

end RowBuckets
end LiveHighlight
