import Mathlib
import LiveHighlight.Lexer
import LiveHighlight.Proofs.Delimiters
import LiveHighlight.Proofs.LexedRows
import LiveHighlight.Proofs.RegionOrder

/-! Lexing loses nothing and invents nothing. A token holds the characters of its row that stand
where it says, no two tokens overlap, and a character that is not blank belongs to one of them.
Splitting the tokens into statements and invalid ones keeps all of them in reading order. -/

namespace LiveHighlight

/-- Where a token starts in a text whose first row has the number `row`. -/
def Token.startIn (token : Token) (text : Text) (row : Nat) : Nat :=
  text.rowStart (token.location.row - row) + token.location.column

namespace Scan

open Text

theorem tokens_text {row column skip : Nat} {text : Text} {t : Token}
    (h : t ∈ tokens row column skip text) :
    ∃ k, t.location.column = column + k ∧ t.text <+: text.drop k := by
  induction text generalizing column skip with
  | nil =>
    rw [tokens] at h
    cases h
  | cons c rest ih =>
    have hlater {skip : Nat} (hmem : t ∈ tokens row (column + 1) skip rest) :
        ∃ k, t.location.column = column + k ∧ t.text <+: (c :: rest).drop k := by
      obtain ⟨k, hcolumn, htext⟩ := ih hmem
      exact ⟨k + 1, by omega, htext⟩
    cases skip with
    | succ skip =>
      rw [tokens_skip] at h
      exact hlater h
    | zero =>
      by_cases hblank : isBlank c
      · rw [tokens_blank row column rest hblank] at h
        exact hlater h
      · rw [tokens_read row column rest hblank] at h
        rcases List.mem_cons.1 h with rfl | hmem
        · exact ⟨0, rfl, List.cons_prefix_cons.2 ⟨rfl, List.take_prefix _ _⟩⟩
        · exact hlater hmem

/-- Past the characters that are skipped, a character that is not blank is part of a token. -/
theorem tokens_cover (row column : Nat) {skip : Nat} {text : Text} {i : Nat} {c : Char}
    (h : text[i]? = some c) (hskip : skip ≤ i) (hc : isBlank c = false) :
    ∃ t ∈ tokens row column skip text,
      t.location.column ≤ column + i ∧ column + i < t.location.column + t.length := by
  induction text generalizing column skip i with
  | nil => cases h
  | cons d rest ih =>
    have hlater {skip j : Nat} (hi : i = j + 1) (hj : skip ≤ j) :
        ∃ t ∈ tokens row (column + 1) skip rest,
          t.location.column ≤ column + i ∧ column + i < t.location.column + t.length := by
      subst hi
      rw [Nat.add_comm j 1, ← Nat.add_assoc]
      exact ih (column + 1) h hj
    cases skip with
    | succ skip =>
      rw [tokens_skip]
      exact hlater (j := i - 1) (by omega) (by omega)
    | zero =>
      by_cases hblank : isBlank d
      · rw [tokens_blank row column rest hblank]
        have hne : i ≠ 0 := by
          rintro rfl
          obtain rfl : d = c := Option.some.inj h
          rw [hblank] at hc
          cases hc
        exact hlater (j := i - 1) (by omega) (Nat.zero_le _)
      · -- the token that is read here takes up `n + 1` characters, and the others are found later
        rw [tokens_read row column rest hblank]
        have hread := Lexeme.read_length_le d rest
        rcases Nat.lt_or_ge (Lexeme.read d rest).2 i with hi | hi
        · obtain ⟨t, ht, hcovers⟩ := hlater (j := i - 1) (by omega)
            (Nat.le_sub_one_of_lt hi : (Lexeme.read d rest).2 ≤ i - 1)
          exact ⟨t, List.mem_cons_of_mem _ ht, hcovers⟩
        · refine ⟨_, List.mem_cons_self, Nat.le_add_right _ _, ?_⟩
          rw [Token.length, List.length_cons, List.length_take, Nat.min_eq_left hread]
          dsimp only
          omega

theorem line_text {before : Option Construct} {row : Nat} {text : Text} {t : Token}
    (h : t ∈ (line before row text).tokens) : t.text <+: text.drop t.location.column := by
  cases before with
  | none =>
    obtain ⟨k, hcolumn, htext⟩ := tokens_text h
    rwa [hcolumn, Nat.zero_add]
  | some construct =>
    cases hpast : Lexeme.pastPair construct.closer text with
    | none =>
      rw [line_middle row hpast] at h
      dsimp only at h
      split at h
      · cases h
      · obtain rfl := List.mem_singleton.1 h
        exact List.prefix_rfl
    | some n =>
      rw [line_closing row hpast] at h
      rcases List.mem_cons.1 h with rfl | hmem
      · exact List.take_prefix _ _
      · obtain ⟨k, hcolumn, htext⟩ := tokens_text hmem
        rwa [hcolumn, ← List.drop_drop]

theorem line_cover (before : Option Construct) (row : Nat) {text : Text} {i : Nat} {c : Char}
    (h : text[i]? = some c) (hc : isBlank c = false) :
    ∃ t ∈ (line before row text).tokens,
      t.location.column ≤ i ∧ i < t.location.column + t.length := by
  have hi := (List.getElem?_eq_some_iff.1 h).1
  cases before with
  | none => simpa [line_none] using tokens_cover row 0 h (Nat.zero_le _) hc
  | some construct =>
    cases hpast : Lexeme.pastPair construct.closer text with
    | none =>
      rw [line_middle row hpast, if_neg (List.ne_nil_of_length_pos (by omega))]
      refine ⟨_, List.mem_singleton_self _, Nat.zero_le _, ?_⟩
      simpa [Token.length] using hi
    | some n =>
      have hbounds := Lexeme.pastPair_bounds hpast
      rw [line_closing row hpast]
      rcases Nat.lt_or_ge i n with hn | hn
      · refine ⟨_, List.mem_cons_self, Nat.zero_le _, ?_⟩
        simp only [Token.length, List.length_take]
        omega
      · obtain ⟨k, rfl⟩ := Nat.exists_eq_add_of_le hn
        rw [← List.getElem?_drop] at h
        obtain ⟨t, ht, hcovers⟩ := tokens_cover row n h (Nat.zero_le _) hc
        exact ⟨t, List.mem_cons_of_mem _ ht, hcovers⟩

/-- All tokens of rows, valid or not, in the order they are scanned. -/
def scanned (before : Option Construct) (row : Nat) (rows : List Text) : List Token :=
  (lines before row rows).flatMap (·.tokens)

theorem scanned_cons (before : Option Construct) (row : Nat) (text : Text) (rest : List Text) :
    scanned before row (text :: rest) =
      (line before row text).tokens ++ scanned (line before 0 text).after (row + 1) rest := by
  rw [scanned, lines_cons, List.flatMap_cons, scanned]

/-- A token is scanned on some row, with what the rows above it leave open. -/
theorem mem_scanned {before : Option Construct} {row : Nat} {rows : List Text} {t : Token} :
    t ∈ scanned before row rows ↔ ∃ i text, rows[i]? = some text ∧
      t ∈ (line (carry before (rows.take i)) (row + i) text).tokens := by
  rw [scanned, List.mem_flatMap]
  constructor
  · rintro ⟨l, hl, ht⟩
    obtain ⟨i, hi⟩ := List.mem_iff_getElem?.1 hl
    rw [lines_getElem?] at hi
    obtain ⟨text, htext, rfl⟩ := Option.map_eq_some_iff.1 hi
    exact ⟨i, text, htext, ht⟩
  · rintro ⟨i, text, htext, ht⟩
    refine ⟨_, List.mem_of_getElem? (i := i) ?_, ht⟩
    rw [lines_getElem?, htext, Option.map_some]

/-- One token ends where the other starts, or before. -/
def EndsBefore (a b : Token) : Prop :=
  a.location.row < b.location.row ∨
    a.location.row = b.location.row ∧ a.location.column + a.length ≤ b.location.column

theorem scanned_row {before : Option Construct} {row : Nat} {rows : List Text} {t : Token}
    (h : t ∈ scanned before row rows) : row ≤ t.location.row := by
  obtain ⟨i, text, -, ht⟩ := mem_scanned.1 h
  rw [(line_laidOut _ _ _).row_eq t ht]
  exact Nat.le_add_right _ _

theorem scanned_endsBefore (before : Option Construct) (row : Nat) (rows : List Text) :
    (scanned before row rows).Pairwise EndsBefore := by
  induction rows generalizing before row with
  | nil => exact List.Pairwise.nil
  | cons text rows ih =>
    have hrow := line_laidOut before row text
    rw [scanned_cons]
    refine List.pairwise_append.2 ⟨?_, ih _ _, ?_⟩
    · refine hrow.apart.imp_of_mem ?_
      intro a b ha hb hab
      exact .inr ⟨(hrow.row_eq a ha).trans (hrow.row_eq b hb).symm, hab⟩
    · intro a ha b hb
      have hlow := scanned_row hb
      rw [← hrow.row_eq a ha] at hlow
      exact .inl hlow

theorem scanned_length_pos {before : Option Construct} {row : Nat} {rows : List Text} {t : Token}
    (h : t ∈ scanned before row rows) : 0 < t.length := by
  obtain ⟨i, text, -, ht⟩ := mem_scanned.1 h
  exact (line_laidOut _ _ _).length_pos t ht

theorem scanned_precedes (before : Option Construct) (row : Nat) (rows : List Text) :
    (scanned before row rows).Pairwise Precedes := by
  refine (scanned_endsBefore before row rows).imp_of_mem ?_
  intro a b ha _ hab
  have hpos := scanned_length_pos ha
  refine hab.imp_right ?_
  rintro ⟨hrow, hcolumn⟩
  exact ⟨hrow, by omega⟩

section

variable {text : Text} {row : Nat} {t : Token}

/-- A scanned token stands on a row of the text, within its ends. -/
theorem exists_line_of_scanned (h : t ∈ scanned none row text.lines) :
    ∃ line, text.lines[t.location.row - row]? = some line ∧
      t.text <+: line.drop t.location.column ∧ t.location.column + t.length ≤ line.length := by
  obtain ⟨i, line, hline, ht⟩ := mem_scanned.1 h
  have hlaid := line_laidOut (carry none (text.lines.take i)) (row + i) line
  refine ⟨line, ?_, line_text ht, hlaid.le_high t ht⟩
  rwa [hlaid.row_eq t ht, Nat.add_sub_cancel_left]

theorem exists_scanned_of_getElem? (row : Nat) {offset : Nat} {c : Char}
    (h : text[offset]? = some c) (hc : isBlank c = false) :
    ∃ t ∈ scanned none row text.lines,
      t.startIn text row ≤ offset ∧ offset < t.startIn text row + t.length := by
  have hbreak : isBreak c = false := by
    rw [Bool.eq_false_iff]
    intro hbreak
    rw [of_decide_eq_true hbreak] at hc
    exact absurd hc (by decide)
  obtain ⟨i, line, j, hline, hj, rfl⟩ := exists_row_of_getElem? h hbreak
  obtain ⟨t, ht, hlow, hhigh⟩ := line_cover (carry none (text.lines.take i)) (row + i) hj hc
  refine ⟨t, mem_scanned.2 ⟨i, line, hline, ht⟩, ?_⟩
  rw [Token.startIn, (line_laidOut _ _ _).row_eq t ht, Nat.add_sub_cancel_left]
  omega

end

theorem startIn_add_length {text : Text} {row : Nat} {a b : Token}
    (ha : a ∈ scanned none row text.lines) (hb : b ∈ scanned none row text.lines)
    (h : EndsBefore a b) : a.startIn text row + a.length ≤ b.startIn text row := by
  obtain ⟨line, hline, -, hend⟩ := exists_line_of_scanned ha
  obtain ⟨line', hline', -, -⟩ := exists_line_of_scanned hb
  have hrow := scanned_row ha
  rw [Token.startIn, Token.startIn]
  rcases h with hlt | ⟨heq, hcolumn⟩
  · have hstart := rowStart_add_length hline (j := b.location.row - row) (by omega)
      (List.getElem?_eq_some_iff.1 hline').1
    omega
  · rw [heq]
    omega

theorem scanned_apart (text : Text) (row : Nat) :
    (scanned none row text.lines).Pairwise fun a b =>
      a.startIn text row + a.length ≤ b.startIn text row :=
  (scanned_endsBefore none row text.lines).imp_of_mem startIn_add_length

theorem statements_flatten (marks : List Mark) :
    (statements marks).flatten = marks.filterMap id := by
  rw [statements, List.flatten_filter_not_isEmpty]
  induction marks with
  | nil => rfl
  | cons mark marks ih =>
    cases mark with
    | none =>
      rw [pieces_none, List.map_cons, List.flatten_cons, ih]
      rfl
    | some t =>
      obtain ⟨piece, rest, hpieces⟩ := exists_pieces_eq_cons marks
      rw [hpieces] at ih
      rw [pieces_some hpieces, List.filterMap_cons, ← ih]
      rfl

theorem filterMap_marks (line : Line) :
    (marks line).filterMap id = line.tokens.filter (!isInvalid ·) := by
  have hends : (if line.after.isNone then [none] else []).filterMap (id : Mark → Mark) = [] := by
    split <;> rfl
  rw [marks, List.filterMap_append, hends, List.append_nil, List.filterMap_flatMap]
  conv_rhs => rw [← List.flatMap_singleton' (line.tokens.filter (!isInvalid ·))]
  congr 1
  funext t
  split <;> rfl

theorem lex_tokens (text : Text) (row : Nat) :
    (lex text row).tokens = (scanned none row text.lines).filter (!isInvalid ·) := by
  rw [LexOutput.tokens, lex, statements_flatten, List.filterMap_flatMap, scanned,
    List.filter_flatMap]
  congr 1
  funext line
  exact filterMap_marks line

theorem lex_invalid_tokens (text : Text) (row : Nat) :
    (lex text row).invalid = (scanned none row text.lines).filter isInvalid := by
  rw [lex, scanned, List.filter_flatMap]

/-- The tokens of a text in reading order, valid or not. -/
theorem merge_lex (text : Text) (row : Nat) :
    RowBuckets.merge (lex text row).tokens (lex text row).invalid =
      scanned none row text.lines := by
  rw [lex_tokens, lex_invalid_tokens, RowBuckets.merge_filter (scanned_precedes _ _ _)]

/-- A row inside a construct that does not close it is one fragment, unless it is empty. -/
theorem scanned_middle {row i : Nat} {rows : List Text} {k : Construct} {text : Text}
    (hopen : (lines none row rows)[i]?.bind (·.after) = some k)
    (htext : rows[i + 1]? = some text) (hne : text ≠ [])
    (hclose : ∀ j, ¬ PairAt k.closer text j) :
    (scanned none row rows).filter (·.location.row = row + (i + 1)) =
      [⟨.fragment k .middle, text, ⟨row + (i + 1), 0⟩⟩] := by
  have hlt := (List.getElem?_eq_some_iff.1 htext).1
  rw [after_getElem? none row rows (by omega)] at hopen
  have hrow (j : Nat) (l : List Token)
      (hl : ((lines none row rows).map (·.tokens))[j]? = some l) :
      ∀ t ∈ l, t.location.row = row + j := by
    rw [List.getElem?_map, lines_getElem?, Option.map_map] at hl
    obtain ⟨line, -, rfl⟩ := Option.map_eq_some_iff.1 hl
    exact (line_laidOut _ _ _).row_eq
  rw [scanned, List.flatMap_def, RowBuckets.filter_flatten_eq _ _ row hrow,
    List.getD_eq_getElem?_getD, List.getElem?_map, lines_getElem?, htext, hopen, Option.map_some,
    Option.map_some, Option.getD_some, line_middle _ (Lexeme.pastPair_eq_none_iff.2 hclose),
    if_neg hne]

/-- The tokens of a text are what is written in it: each one where it says, none twice, and nothing
but blanks left out. -/
theorem lex_covers_text (lexer : LineLexer) (text : Text) (row : Nat) :
    let output := (Lexer.lex lexer text row).1
    let all := RowBuckets.merge output.tokens output.invalid
    all.Perm (output.tokens ++ output.invalid) ∧
      (∀ t ∈ all, t.text ≠ [] ∧ row ≤ t.location.row ∧
        ∃ line, text.lines[t.location.row - row]? = some line ∧
          t.text <+: line.drop t.location.column) ∧
      all.Pairwise Precedes ∧
      all.Pairwise (fun a b => a.startIn text row + a.length ≤ b.startIn text row) ∧
      output.tokens.Pairwise Precedes ∧
      output.invalid.Pairwise Precedes ∧
      (∀ offset c, text[offset]? = some c → isBlank c = false →
        ∃! t, t ∈ all ∧ t.startIn text row ≤ offset ∧ offset < t.startIn text row + t.length) ∧
      ∀ i k line, (lines none row text.lines)[i]?.bind (·.after) = some k →
        text.lines[i + 1]? = some line → line ≠ [] → (∀ j, ¬ PairAt k.closer line j) →
        all.filter (·.location.row = row + (i + 1)) =
          [⟨.fragment k .middle, line, ⟨row + (i + 1), 0⟩⟩] := by
  intro output all
  have hsorted := scanned_precedes none row text.lines
  have htokens : output.tokens = (scanned none row text.lines).filter (!isInvalid ·) :=
    lex_tokens text row
  have hinvalid : output.invalid = (scanned none row text.lines).filter isInvalid :=
    lex_invalid_tokens text row
  have hall : all = scanned none row text.lines := by
    show RowBuckets.merge output.tokens output.invalid = _
    rw [htokens, hinvalid, RowBuckets.merge_filter hsorted]
  rw [hall, htokens, hinvalid]
  refine ⟨?_, ?_, hsorted, scanned_apart text row, hsorted.filter _, hsorted.filter _, ?_, ?_⟩
  · exact (List.filter_append_perm isInvalid _).symm.trans List.perm_append_comm
  · intro t ht
    obtain ⟨line, hline, htext, -⟩ := exists_line_of_scanned ht
    exact ⟨List.length_pos_iff.1 (scanned_length_pos ht), scanned_row ht, line, hline, htext⟩
  · intro offset c hoffset hc
    obtain ⟨t, ht, hcovers⟩ := exists_scanned_of_getElem? row hoffset hc
    refine ⟨t, ⟨ht, hcovers⟩, ?_⟩
    rintro s ⟨hs, hscovers⟩
    exact eq_of_covers_point (scanned_apart text row) hs ht hscovers hcovers
  · intro i k line hopen hline hne hclose
    exact scanned_middle hopen hline hne hclose

end Scan
end LiveHighlight
