import Mathlib
import LiveHighlight.Lexer
import LiveHighlight.Proofs.LexedRows

/-! Lexing at clean breaks. A line break with nothing open before it ends a row and a statement:
what stands below it is lexed as if it stood alone, and only its rows are numbered on. -/

namespace LiveHighlight

theorem Statement.Parser.parse_append (parser : Parser) (upper lower : List (List Token)) :
    parser.parse (upper ++ lower) =
      ((parser.parse upper).1 ++ (parser.parse lower).1,
        ⟨(parser.parse upper).2.errorCount + (({} : Parser).parse lower).2.errorCount⟩) := by
  simp only [parse, List.map_append, List.countP_append, Nat.zero_add, Nat.add_assoc]

namespace Scan

open Text Statement

/-- The construct that scanning a text leaves open. -/
def openAtEnd (text : Text) : Option Construct :=
  (lines none 0 text.lines).getLast?.bind (·.after)

theorem openAtEnd_eq_carry (text : Text) : openAtEnd text = carry none text.lines := by
  have hpos := List.length_pos_iff.2 (lines_ne_nil text)
  rw [openAtEnd, List.getLast?_eq_getElem?, length_lines, after_getElem? none 0 _ (by omega)]
  congr 1
  exact List.take_of_length_le (by omega)

theorem statements_append_none (marks rest : List Mark) :
    statements (marks ++ none :: rest) = statements marks ++ statements rest := by
  rw [statements, pieces_append_cons _ _ _ _ rfl, List.map_append, List.filter_append]
  rfl

/-- The marks of rows that leave nothing open end with the end of a statement. -/
theorem exists_marks_append_none {before : Option Construct} {rows : List Text} (row : Nat)
    (hne : rows ≠ []) (h : carry before rows = none) :
    ∃ front, (lines before row rows).flatMap marks = front ++ [none] := by
  obtain ⟨upper, last, rfl⟩ := (List.eq_nil_or_concat rows).resolve_left hne
  rw [List.concat_eq_append] at h ⊢
  have hafter : (line (carry before upper) (row + upper.length) last).after = none := by
    rw [line_after _ 0]
    rwa [carry_append] at h
  refine ⟨(lines before row upper).flatMap marks ++ tokenMarks
    ((line (carry before upper) (row + upper.length) last).tokens.filter (!isInvalid ·)), ?_⟩
  rw [lines_append, List.flatMap_append, List.append_assoc, lines, lines, List.flatMap_cons,
    List.flatMap_nil, List.append_nil, marks, hafter]
  rfl

theorem statements_lines_append {before : Option Construct} {rows : List Text} (row : Nat)
    (hne : rows ≠ []) (h : carry before rows = none) (below : List Text) :
    statements ((lines before row (rows ++ below)).flatMap marks) =
      statements ((lines before row rows).flatMap marks) ++
        statements ((lines none (row + rows.length) below).flatMap marks) := by
  obtain ⟨front, hfront⟩ := exists_marks_append_none row hne h
  have hnone : statements [] = [] := rfl
  rw [lines_append, List.flatMap_append, h, hfront, List.append_assoc, List.singleton_append,
    statements_append_none, statements_append_none, hnone, List.append_nil]

/-- Lexing is compositional at a line break with nothing open before it. The statements of the text
are those above the break and then those below it, and so are the invalid tokens; a parser marks the
same calls in both parts and counts the faults of both. -/
theorem lex_append_break (lexer : LineLexer) {above : Text} (below : Text) (row : Nat)
    (hclean : openAtEnd above = none) :
    let whole := (Lexer.lex lexer (above ++ '\n' :: below) row).1
    let upper := (Lexer.lex lexer above row).1
    let lower := (Lexer.lex lexer below (row + above.countP isBreak + 1)).1
    whole.statements = upper.statements ++ lower.statements ∧
      whole.invalid = upper.invalid ++ lower.invalid ∧
      ∀ parser : Parser,
        (parser.parse whole.statements).1 =
          (parser.parse upper.statements).1 ++ (parser.parse lower.statements).1 ∧
        (parser.parse whole.statements).2.errorCount = parser.errorCount +
          (({} : Parser).parse upper.statements).2.errorCount +
          (({} : Parser).parse lower.statements).2.errorCount := by
  intro whole upper lower
  rw [openAtEnd_eq_carry] at hclean
  have hrow : row + above.lines.length = row + above.countP isBreak + 1 := by
    rw [Text.length_lines, lineCount, Nat.add_assoc]
  have hstatements : whole.statements = upper.statements ++ lower.statements := by
    have happend := statements_lines_append row (lines_ne_nil above) hclean below.lines
    rwa [← lines_append_break, hrow] at happend
  have hinvalid : whole.invalid = upper.invalid ++ lower.invalid := by
    show (lines none row (above ++ '\n' :: below).lines).flatMap _ = _
    rw [lines_append_break, lines_append, hclean, hrow, List.flatMap_append]
    rfl
  refine ⟨hstatements, hinvalid, ?_⟩
  intro parser
  rw [hstatements, Parser.parse_append]
  refine ⟨rfl, ?_⟩
  simp only [Parser.parse, Nat.zero_add]

/-- The break after a comment that was closed: a bang below it calls nothing above, and a bracket
below it closes none. -/
theorem lex_append_break_bang :
    let above : Text := ['~', ':', '\n', ':', '~', '(', 'f']
    let parsed := ({} : Parser).parse
      (Lexer.lex LineLexer.mk (above ++ '\n' :: ['!', ')']) 3).1.statements
    openAtEnd above = none ∧ parsed.2.errorCount = 2 ∧
      parsed.1.map (·.map (·.kind)) =
        [[.fragment .comment .opening, .fragment .comment .closing, .punctuation,
          .reference false false], [.punctuation, .punctuation]] := by
  intro above parsed
  have hclean : openAtEnd above = none := by decide
  obtain ⟨-, -, hparse⟩ := lex_append_break LineLexer.mk ['!', ')'] 3 hclean
  obtain ⟨hcalls, hcount⟩ := hparse {}
  refine ⟨hclean, hcount.trans (by decide), ?_⟩
  rw [hcalls]
  decide

end Scan
end LiveHighlight
