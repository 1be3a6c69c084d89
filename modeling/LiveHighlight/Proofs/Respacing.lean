import Mathlib
import LiveHighlight.Proofs.ReadAhead

/-! Tokens and the blanks between them. The tokens of a row, put together again with single blanks,
are scanned once more as the same tokens and make the same statements; the text of a token alone is
scanned as that token. -/

namespace LiveHighlight

/-- The token as it would stand at the start of a text. -/
def Token.unplaced (token : Token) : Token := { token with location := ⟨0, 0⟩ }

theorem Text.lines_of_no_break {text : Text} (h : '\n' ∉ text) : text.lines = [text] := by
  induction text with
  | nil => rfl
  | cons c text ih =>
    rw [List.mem_cons, not_or] at h
    have hc : isBreak c = false := by simpa [isBreak] using Ne.symm h.1
    exact lines_cons_other hc (ih h.2)

namespace Scan

open Text

/-- The texts of tokens with single blanks between them. -/
def joined (tokens : List Token) : Text := [' '].intercalate (tokens.map (·.text))

/-- What comes after a token: a blank and the tokens that follow, if there are any. -/
def spaced (later : List Token) : Text := if later = [] then [] else ' ' :: joined later

theorem joined_cons (t : Token) (later : List Token) :
    joined (t :: later) = t.text ++ spaced later := by
  cases later with
  | nil => simp [joined, spaced]
  | cons next later => simp [joined, spaced, List.intercalate_cons_cons]

theorem parted_spaced (later : List Token) : Lexeme.Parted (spaced later) := by
  intro c hc
  unfold spaced at hc
  split_ifs at hc
  · cases hc
  · cases hc
    rfl

theorem exists_tokens_spaced (row column : Nat) (later : List Token) :
    ∃ column', tokens row column 0 (spaced later) = tokens row column' 0 (joined later) := by
  unfold spaced
  split_ifs with hlater
  · exact ⟨column, by rw [hlater]; rfl⟩
  · exact ⟨column + 1, tokens_blank row column _ rfl⟩

theorem mem_joined {tokens : List Token} {c : Char} (h : c ∈ joined tokens) :
    c = ' ' ∨ ∃ t ∈ tokens, c ∈ t.text := by
  induction tokens with
  | nil => cases h
  | cons t later ih =>
    rw [joined_cons, spaced] at h
    rcases List.mem_append.1 h with h | h
    · exact .inr ⟨t, List.mem_cons_self, h⟩
    · split_ifs at h
      · cases h
      · rcases List.mem_cons.1 h with h | h
        · exact .inl h
        · refine (ih h).imp_right ?_
          rintro ⟨s, hs, hc⟩
          exact ⟨s, List.mem_cons_of_mem _ hs, hc⟩

theorem mem_of_mem_tokens {row column skip : Nat} {text : Text} {t : Token}
    (h : t ∈ tokens row column skip text) {c : Char} (hc : c ∈ t.text) : c ∈ text := by
  obtain ⟨k, -, htext⟩ := tokens_text h
  exact List.mem_of_mem_drop (htext.subset hc)

theorem not_mem_spaced {row column skip : Nat} {text : Text} {c : Char} (hc : c ≠ ' ')
    (h : c ∉ text) : c ∉ spaced (tokens row column skip text) := by
  intro hmem
  have hjoined : c ∈ joined (tokens row column skip text) := by
    unfold spaced at hmem
    split_ifs at hmem
    · cases hmem
    · exact List.mem_of_ne_of_mem hc hmem
  rcases mem_joined hjoined with rfl | ⟨t, ht, htext⟩
  · exact hc rfl
  · exact h (mem_of_mem_tokens ht htext)

theorem tokens_append_skip (row column : Nat) (front tail : Text) :
    tokens row column front.length (front ++ tail) = tokens row (column + front.length) 0 tail := by
  induction front generalizing column with
  | nil => rfl
  | cons c front ih =>
    rw [List.length_cons, List.cons_append, tokens_skip, ih, Nat.add_assoc, Nat.add_comm 1]

/-- A token is read as before if the other tokens of the row come after it with blanks between
them: one that opens a construct is the last of them, and no quote follows one that is left
open. -/
theorem read_spaced (row column : Nat) (c : Char) (rest : Text) :
    Lexeme.read c (rest.take (Lexeme.read c rest).2 ++
      spaced (tokens row column (Lexeme.read c rest).2 rest)) = Lexeme.read c rest := by
  refine Lexeme.read_append (parted_spaced _) ?_ ?_
  · intro k part hfragment
    have hall := (Lexeme.read_fragment hfragment).2
    rw [tokens_eq_nil row column _ rest hall.ge]
    rfl
  · intro hquote hinvalid
    exact not_mem_spaced (by decide) (Lexeme.not_mem_of_read_invalid hquote hinvalid)

/-- The tokens of a piece of a row, put together with single blanks, are scanned as the same tokens
again. -/
theorem tokens_joined (row column skip : Nat) (text : Text) (row' column' : Nat) :
    (tokens row' column' 0 (joined (tokens row column skip text))).map Token.unplaced =
      (tokens row column skip text).map Token.unplaced := by
  induction text generalizing column skip column' with
  | nil =>
    rw [tokens]
    rfl
  | cons c rest ih =>
    cases skip with
    | succ skip =>
      rw [tokens_skip]
      exact ih (column + 1) skip column'
    | zero =>
      by_cases hblank : isBlank c
      · rw [tokens_blank row column rest hblank]
        exact ih (column + 1) 0 column'
      · have hread := read_spaced row (column + 1) c rest
        have hlength := List.length_take_of_le (Lexeme.read_length_le c rest)
        rw [tokens_read row column rest hblank, joined_cons, List.cons_append,
          tokens_read row' column' _ hblank, hread, List.take_left' hlength]
        nth_rewrite 2 [← hlength]
        rw [tokens_append_skip, List.map_cons, List.map_cons]
        obtain ⟨next, hnext⟩ := exists_tokens_spaced row' (column' + 1 +
          (rest.take (Lexeme.read c rest).2).length)
          (tokens row (column + 1) (Lexeme.read c rest).2 rest)
        rw [hnext, ih]
        rfl

/-- The text of a token is scanned as that one token. -/
theorem tokens_alone {row column skip : Nat} {text : Text} {t : Token}
    (h : t ∈ tokens row column skip text) (row' column' : Nat) :
    tokens row' column' 0 t.text = [⟨t.kind, t.text, ⟨row', column'⟩⟩] := by
  induction text generalizing column skip with
  | nil =>
    rw [tokens] at h
    cases h
  | cons c rest ih =>
    cases skip with
    | succ skip =>
      rw [tokens_skip] at h
      exact ih h
    | zero =>
      by_cases hblank : isBlank c
      · rw [tokens_blank row column rest hblank] at h
        exact ih h
      · rw [tokens_read row column rest hblank] at h
        rcases List.mem_cons.1 h with rfl | h
        · have hread : Lexeme.read c (rest.take (Lexeme.read c rest).2) = Lexeme.read c rest := by
            have hend : Lexeme.read c (rest.take (Lexeme.read c rest).2 ++ []) =
                Lexeme.read c rest :=
              Lexeme.read_append Lexeme.parted_nil (fun _ _ _ => rfl) fun _ _ => List.not_mem_nil
            rwa [List.append_nil] at hend
          dsimp only
          rw [tokens_read row' column' _ hblank, hread, List.take_take, Nat.min_self,
            tokens_eq_nil _ _ _ _ (List.length_take_le _ _)]
        · exact ih h

/-- A part of a construct that was opened on an earlier row. -/
def isContinued (token : Token) : Bool :=
  match token.kind with
  | .fragment _ .middle | .fragment _ .closing => true
  | _ => false

theorem line_alone {before : Option Construct} {row : Nat} {text : Text} {t : Token}
    (h : t ∈ (line before row text).tokens) (hstart : isContinued t = false) (row' : Nat) :
    tokens row' 0 0 t.text = [⟨t.kind, t.text, ⟨row', 0⟩⟩] := by
  cases before with
  | none => exact tokens_alone h row' 0
  | some construct =>
    cases hpast : Lexeme.pastPair construct.closer text with
    | none =>
      rw [line_middle row hpast] at h
      dsimp only at h
      split at h
      · cases h
      · obtain rfl := List.mem_singleton.1 h
        cases hstart
    | some n =>
      rw [line_closing row hpast] at h
      rcases List.mem_cons.1 h with rfl | h
      · cases hstart
      · exact tokens_alone h row' 0

theorem pieces_map {α β : Type} (f : α → β) (stop : β → Bool) (as : List α) :
    pieces stop (as.map f) = (pieces (stop ∘ f) as).map (·.map f) := by
  induction as with
  | nil => rfl
  | cons a as ih =>
    rw [List.map_cons, pieces, pieces, ih, Function.comp_apply]
    split
    · rfl
    · cases hpieces : pieces (stop ∘ f) as with
      | nil => rfl
      | cons piece rest => rfl

theorem statements_map (f : Token → Token) (marks : List Mark) :
    statements (marks.map (Option.map f)) = (statements marks).map (·.map f) := by
  have hisNone : (Option.isNone ∘ Option.map f : Mark → Bool) = Option.isNone := by
    funext mark
    exact Option.isNone_map
  have hpiece (piece : List Mark) :
      (piece.map (Option.map f)).filterMap id = (piece.filterMap id).map f := by
    rw [List.filterMap_map, List.map_filterMap]
    rfl
  have hpieces : (pieces Option.isNone (marks.map (Option.map f))).map (·.filterMap id) =
      ((pieces Option.isNone marks).map (·.filterMap id)).map (·.map f) := by
    rw [pieces_map, hisNone, List.map_map, List.map_map]
    exact List.map_congr_left fun piece _ => hpiece piece
  rw [statements, statements, hpieces, List.filter_map]
  congr 1
  exact List.filter_congr fun piece _ => by rw [Function.comp_apply, List.isEmpty_map]

theorem marks_unplaced (tokens : List Token) (after : Option Construct) :
    marks ⟨tokens.map Token.unplaced, after⟩ =
      (marks ⟨tokens, after⟩).map (Option.map Token.unplaced) := by
  have hends : (if after.isNone then [none] else []).map (Option.map Token.unplaced) =
      if after.isNone then [none] else [] := by
    split <;> rfl
  rw [marks, marks, List.map_append, hends, List.filter_map, List.flatMap_map, List.map_flatMap]
  congr 1
  refine List.flatMap_congr fun t _ => ?_
  show (if isComma t then [some t.unplaced, none] else [some t.unplaced]) = _
  split <;> rfl

theorem opened_unplaced (tokens : List Token) :
    opened (tokens.map Token.unplaced) = opened tokens := by
  unfold opened
  rw [List.getLast?_map]
  cases tokens.getLast? <;> rfl

/-- Rows with the same tokens, wherever these stand, have the same statements. -/
theorem statements_unplaced {a b : List Token} (h : a.map Token.unplaced = b.map Token.unplaced) :
    (statements (marks ⟨a, opened a⟩)).map (·.map Token.unplaced) =
      (statements (marks ⟨b, opened b⟩)).map (·.map Token.unplaced) := by
  rw [← statements_map, ← statements_map, ← marks_unplaced, ← marks_unplaced, ← opened_unplaced a,
    ← opened_unplaced b, h]

theorem filter_invalid_unplaced (tokens : List Token) :
    (tokens.filter isInvalid).map Token.unplaced =
      (tokens.map Token.unplaced).filter isInvalid := by
  rw [List.filter_map]
  rfl

theorem lex_row {text : Text} (h : '\n' ∉ text) (row : Nat) :
    lex text row = ⟨statements (marks (line none row text)),
      (line none row text).tokens.filter isInvalid⟩ := by
  rw [lex, lines_of_no_break h, lines, lines, List.flatMap_singleton, List.flatMap_singleton]

theorem scanned_row_alone {text : Text} (h : '\n' ∉ text) (row : Nat) :
    scanned none row text.lines = tokens row 0 0 text := by
  rw [lines_of_no_break h, scanned_cons, line_none]
  exact List.append_nil _

/-- The output that holds one token and nothing else. -/
def single (token : Token) : LexOutput :=
  if isInvalid token then { invalid := [token.unplaced] }
  else { statements := [[token.unplaced]] }

theorem lex_alone {row column skip : Nat} {text : Text} {t : Token}
    (h : t ∈ tokens row column skip text) (hbreak : '\n' ∉ text) : lex t.text 0 = single t := by
  have hrow : '\n' ∉ t.text := fun hmem => hbreak (mem_of_mem_tokens h hmem)
  have halone : tokens 0 0 0 t.text = [t.unplaced] := tokens_alone h 0 0
  rw [lex_row hrow, line_none, halone, single]
  by_cases hinvalid : isInvalid t
  · have hunplaced : isInvalid t.unplaced = true := hinvalid
    have hopened : opened [t.unplaced] = none := by
      simp [opened, Token.opens, Token.unplaced, of_decide_eq_true hinvalid]
    simp [hinvalid, hunplaced, hopened, marks, statements, pieces]
  · have hunplaced : isInvalid t.unplaced = false := Bool.eq_false_iff.2 hinvalid
    have hmarks : statements (marks ⟨[t.unplaced], opened [t.unplaced]⟩) = [[t.unplaced]] := by
      rw [marks, List.filter_singleton, hunplaced, Bool.not_false, cond_true,
        List.flatMap_singleton]
      split_ifs <;> rfl
    rw [hmarks, if_neg hinvalid, List.filter_singleton, hunplaced]
    rfl

/-- The tokens of a row survive a change of the blanks between them. -/
theorem lex_joined (lexer : LineLexer) {line : Text} (hline : '\n' ∉ line) (row row' : Nat) :
    let output := (Lexer.lex lexer line row).1
    let all := RowBuckets.merge output.tokens output.invalid
    let again := (Lexer.lex lexer (joined all) row').1
    (RowBuckets.merge again.tokens again.invalid).map Token.unplaced = all.map Token.unplaced ∧
      again.statements.map (·.map Token.unplaced) = output.statements.map (·.map Token.unplaced) ∧
      again.invalid.map Token.unplaced = output.invalid.map Token.unplaced ∧
      (∀ t ∈ all, (Lexer.lex lexer t.text 0).1 = single t) ∧
      ∃ kindOf : Text → TokenKind, ∀ (text : Text) (first : Nat),
        let other := (Lexer.lex lexer text first).1
        ∀ t ∈ RowBuckets.merge other.tokens other.invalid,
          isContinued t = false → t.kind = kindOf t.text := by
  intro output all again
  have hall : all = tokens row 0 0 line :=
    (merge_lex line row).trans (scanned_row_alone hline row)
  have hjoined : '\n' ∉ joined all := by
    rw [hall]
    intro hmem
    rcases mem_joined hmem with hblank | ⟨t, ht, htext⟩
    · exact absurd hblank (by decide)
    · exact hline (mem_of_mem_tokens ht htext)
  have hsame : (tokens row' 0 0 (joined all)).map Token.unplaced = all.map Token.unplaced := by
    rw [hall]
    exact tokens_joined row 0 0 line row' 0
  have hagain : again = lex (joined all) row' := rfl
  have houtput : output = lex line row := rfl
  refine ⟨?_, ?_, ?_, ?_, ?_⟩
  · rw [hagain, merge_lex, scanned_row_alone hjoined, hsame]
  · rw [hagain, houtput, lex_row hjoined, lex_row hline]
    exact statements_unplaced (hsame.trans (by rw [hall]))
  · rw [hagain, houtput, lex_row hjoined, lex_row hline, filter_invalid_unplaced,
      filter_invalid_unplaced, line_none, line_none, hsame, hall]
  · intro t ht
    rw [hall] at ht
    exact lex_alone ht hline
  · refine ⟨fun text => ((tokens 0 0 0 text).head?.map (·.kind)).getD .invalid, ?_⟩
    intro text first other t ht hstart
    have hscanned : t ∈ scanned none first text.lines := merge_lex text first ▸ ht
    obtain ⟨i, row, -, hrow⟩ := mem_scanned.1 hscanned
    dsimp only
    rw [line_alone hrow hstart]
    rfl

/-- A row without blanks in which every token but the last stands right before the next one: an
operator, a number with a suffix letter that is none, names, a comma and a quote left open. -/
theorem lex_joined_tight :
    let line : Text := ['a', '<', '1', '.', '5', 'L', 'x', '\x60', 'q', '\x60', ',', '~', '\x60']
    let output := (Lexer.lex LineLexer.mk line 2).1
    let all := RowBuckets.merge output.tokens output.invalid
    '\n' ∉ line ∧
      joined all = ['a', ' ', '<', ' ', '1', '.', '5', ' ', 'L', 'x', ' ', '\x60', 'q', '\x60',
        ' ', ',', ' ', '~', ' ', '\x60'] ∧
      (Lexer.lex LineLexer.mk (joined all) 0).1.statements.map (·.map Token.unplaced) =
        output.statements.map (·.map Token.unplaced) := by
  intro line output all
  have hline : '\n' ∉ line := by decide
  have hall : all = scanned none 2 line.lines := merge_lex line 2
  exact ⟨hline, by rw [hall]; decide, (lex_joined LineLexer.mk hline 2 0).2.1⟩

end Scan
end LiveHighlight
