import Mathlib
import LiveHighlight.Proofs.Draining
import LiveHighlight.Proofs.SolidTokens

/-! Styles by tokens. Highlighting a whole text gives each character the style of the one token that
covers it, and the default style to what no token covers. -/

namespace LiveHighlight

open Text Relex

/-- A token of a text stands over an offset. -/
def Token.CoversAt (token : Token) (text : Text) (offset : Nat) : Prop :=
  token.startIn text 0 ≤ offset ∧ offset < token.startIn text 0 + token.length

namespace Scan

theorem mem_flatten_marked {before : Option Construct} {row : Nat} {rows : List Text} {t : Token} :
    t ∈ (marked before row rows).flatten ↔ ∃ upper text rest, rows = upper ++ text :: rest ∧
      t ∈ markRow (line (carry before upper) (row + upper.length) text).tokens := by
  constructor
  · intro h
    obtain ⟨bucket, hbucket, ht⟩ := List.mem_flatten.1 h
    obtain ⟨l, hl, rfl⟩ := List.mem_map.1 hbucket
    obtain ⟨i, hi⟩ := List.mem_iff_getElem?.1 hl
    rw [lines_getElem?] at hi
    obtain ⟨text, htext, rfl⟩ := Option.map_eq_some_iff.1 hi
    obtain ⟨hlt, rfl⟩ := List.getElem?_eq_some_iff.1 htext
    refine ⟨rows.take i, rows[i], rows.drop (i + 1), ?_, ?_⟩
    · rw [List.cons_getElem_drop_succ, List.take_append_drop]
    · rwa [List.length_take_of_le hlt.le]
  · rintro ⟨upper, text, rest, rfl, ht⟩
    rw [marked_append, marked_cons, List.flatten_append, List.flatten_cons]
    exact List.mem_append_right _ (List.mem_append_left _ ht)

theorem map_flatten_marked {α : Type} (f : Token → α) (hf : ∀ t, f (Statement.call t) = f t)
    (before : Option Construct) (row : Nat) (rows : List Text) :
    (marked before row rows).flatten.map f = (scanned before row rows).map f := by
  induction rows generalizing before row with
  | nil => rfl
  | cons text rows ih =>
    rw [marked_cons, scanned_cons, List.flatten_cons, List.map_append, List.map_append, ih,
      markRow_map f hf]

/-- The tokens that a parser gives back, with the invalid ones, are those of the rows. -/
theorem mem_parsed (text : Text) (t : Token) :
    t ∈ (({} : Statement.Parser).parse (lex text 0).statements).1.flatten ++ (lex text 0).invalid ↔
      t ∈ (fullRows text).flatten := by
  rw [Statement.Parser.parse, List.mem_append, lex_valid, lex_invalid, List.mem_filter,
    List.mem_filter, fullRows]
  cases isInvalid t <;> simp

section

variable {text : Text} {t : Token} {offset : Nat}

/-- A token covers offsets of one row only, and there it stands over their columns. -/
theorem exists_row_of_coversAt (ht : t ∈ (fullRows text).flatten) (h : t.CoversAt text offset) :
    ∃ upper line rest column, text.lines = upper ++ line :: rest ∧
      t ∈ markRow (Scan.line (carry none upper) upper.length line).tokens ∧
      offset = width upper + column ∧ column < line.length ∧
      t.location.column ≤ column ∧ column < t.location.column + t.length := by
  obtain ⟨upper, line, rest, hlines, hmem⟩ := mem_flatten_marked.1 ht
  rw [Nat.zero_add] at hmem
  have hlaid := markRow_laidOut (line_laidOut (carry none upper) upper.length line)
  have hhigh := hlaid.le_high t hmem
  rw [Token.CoversAt, Token.startIn, hlaid.row_eq t hmem, Nat.sub_zero,
    (Paint.rowStart_upper hlines).1] at h
  obtain ⟨column, rfl⟩ : ∃ column, offset = width upper + column :=
    Nat.exists_eq_add_of_le (by omega)
  exact ⟨upper, line, rest, column, hlines, hmem, rfl, by omega, by omega, by omega⟩

theorem coversAt_of_row {upper rest : List Text} {line : Text} {column : Nat}
    (hlines : text.lines = upper ++ line :: rest)
    (ht : t ∈ markRow (Scan.line (carry none upper) upper.length line).tokens)
    (h : t.location.column ≤ column ∧ column < t.location.column + t.length) :
    t ∈ (fullRows text).flatten ∧ t.CoversAt text (width upper + column) := by
  have hlaid := markRow_laidOut (line_laidOut (carry none upper) upper.length line)
  refine ⟨mem_flatten_marked.2 ⟨upper, line, rest, hlines, by rwa [Nat.zero_add]⟩, ?_⟩
  rw [Token.CoversAt, Token.startIn, hlaid.row_eq t ht, Nat.sub_zero,
    (Paint.rowStart_upper hlines).1]
  omega

theorem coversAt_unique {s : Token} (hs : s ∈ (fullRows text).flatten)
    (ht : t ∈ (fullRows text).flatten) (hscovers : s.CoversAt text offset)
    (htcovers : t.CoversAt text offset) : s = t := by
  -- marking calls moves no token, so the places are those of the scan
  have hplaces := map_flatten_marked (fun t => (t.startIn text 0, t.length))
    (fun t => by
      simp only [Token.startIn, Token.length, Statement.call_location, Statement.call_text])
    none 0 text.lines
  have hapart := scanned_apart text 0
  rw [← @List.pairwise_map _ _ (fun t : Token => (t.startIn text 0, t.length))
    (fun a b => a.1 + a.2 ≤ b.1), ← hplaces, List.pairwise_map] at hapart
  exact eq_of_covers_point hapart hs ht hscovers htcovers

/-- A character that a token covers is no line break, and no blank unless the token is a comment or
stands in quotes. -/
theorem char_of_coversAt (ht : t ∈ (fullRows text).flatten) (h : t.CoversAt text offset)
    {c : Char} (hc : text[offset]? = some c) :
    isBreak c = false ∧ (t.kind.isQuoting = false → isBlank c = false) := by
  obtain ⟨upper, line, rest, column, hlines, hmem, rfl, hcolumn, hlow, hhigh⟩ :=
    exists_row_of_coversAt ht h
  rw [getElem?_row hlines hcolumn] at hc
  have hline : line ∈ text.lines := by
    rw [hlines]
    exact List.mem_append_right _ List.mem_cons_self
  refine ⟨not_break_of_mem_lines hline c (List.mem_of_getElem? hc), ?_⟩
  intro hplain
  obtain ⟨s, hs, hlocation, htext, hquoting⟩ := exists_of_mem_markRow hmem
  apply line_solid hs (hquoting.trans hplain)
  -- the token has the text of the row at its column, and so this character
  obtain ⟨k, rfl⟩ := Nat.exists_eq_add_of_le hlow
  obtain ⟨tail, htail⟩ := line_text hs
  rw [hlocation] at htail
  have hget := congrArg (·[k]?) htail
  rw [Token.length, ← htext] at hhigh
  rw [List.getElem?_append_left (by omega), List.getElem?_drop, hc] at hget
  exact List.mem_of_getElem? hget

end

end Scan

namespace Paint

open Scan

theorem foldl_of_uncovered (rules : StyleRules) {tokens : List Token} {column : Nat}
    (h : ∀ t ∈ tokens, ¬ (t.location.column ≤ column ∧ column < t.location.column + t.length))
    (style : TokenStyle) :
    tokens.foldl
      (fun style t =>
        if t.location.column ≤ column ∧ column < t.location.column + t.length then rules.resolve t
        else style) style = style := by
  induction tokens with
  | nil => rfl
  | cons t rest ih =>
    rw [List.foldl_cons, if_neg (h t List.mem_cons_self)]
    apply ih
    exact fun s hs => h s (List.mem_cons_of_mem _ hs)

/-- Tokens of a row do not overlap, so the one that covers a column gives it its style. -/
theorem rowStyle_of_covered (rules : StyleRules) {tokens : List Token} {t : Token} {column : Nat}
    (hapart : tokens.Pairwise fun a b => a.location.column + a.length ≤ b.location.column)
    (ht : t ∈ tokens)
    (h : t.location.column ≤ column ∧ column < t.location.column + t.length) :
    rowStyle rules tokens column = rules.resolve t := by
  obtain ⟨left, right, rfl⟩ := List.append_of_mem ht
  rw [rowStyle, List.foldl_append, List.foldl_cons, if_pos h]
  apply foldl_of_uncovered
  intro s hs
  have hafter := (List.pairwise_cons.1 (List.pairwise_append.1 hapart).2.1).1 s hs
  omega

section

variable (rules : StyleRules) {text : Text} {t : Token} {offset : Nat}

theorem styleRows_getElem? (before : Option Construct) (upper : List Text) (line : Text)
    (rest : List Text) (row : Nat) {column : Nat} (hcolumn : column ≤ line.length) :
    (styleRows rules before (upper ++ line :: rest))[width upper + column]? =
      some (rowStyle rules (markRow (Scan.line (carry before upper) row line).tokens) column) := by
  have hlength := length_styleRows rules before upper
  rw [styleRows_append, List.getElem?_append_right (by omega), hlength, Nat.add_sub_cancel_left,
    styleRows, List.getElem?_append_left (by simp; omega), List.getElem?_map,
    List.getElem?_range (by omega), Option.map_some, line_onRow _ 0 row, markRow_onRow,
    rowStyle_onRow]

theorem fullStyles_getElem? {upper rest : List Text} {line : Text}
    (hlines : text.lines = upper ++ line :: rest) {column : Nat} (hcolumn : column ≤ line.length)
    (hoffset : width upper + column < text.length) :
    (fullStyles rules text)[width upper + column]? = some (rowStyle rules
      (markRow (Scan.line (carry none upper) upper.length line).tokens) column) := by
  rw [fullStyles, List.getElem?_take, if_pos hoffset, hlines, styleRows_getElem? rules none upper
    line rest upper.length hcolumn]

theorem fullStyles_of_coversAt (ht : t ∈ (fullRows text).flatten) (h : t.CoversAt text offset) :
    (fullStyles rules text)[offset]? = some (rules.resolve t) := by
  obtain ⟨upper, line, rest, column, hlines, hmem, rfl, hcolumn, hover⟩ :=
    exists_row_of_coversAt ht h
  have hlaid := markRow_laidOut (line_laidOut (carry none upper) upper.length line)
  have hle := (rowStart_upper hlines).2.2
  rw [fullStyles_getElem? rules hlines hcolumn.le (by omega),
    rowStyle_of_covered rules hlaid.apart hmem hover]

theorem fullStyles_of_uncovered (hoffset : offset < text.length)
    (h : ∀ t ∈ (fullRows text).flatten, ¬ t.CoversAt text offset) :
    (fullStyles rules text)[offset]? = some .default := by
  have hlt : offset < width text.lines := by
    rw [width_lines]
    exact Nat.lt_succ_of_lt hoffset
  obtain ⟨upper, line, rest, column, hlines, hcolumn, rfl⟩ := exists_row_of_lt_width hlt
  rw [fullStyles_getElem? rules hlines hcolumn hoffset, rowStyle, foldl_of_uncovered]
  intro t ht hover
  obtain ⟨hmem, hcovers⟩ := coversAt_of_row hlines ht hover
  exact h t hmem hcovers

end

end Paint

namespace Highlighter

/-- Highlighting a whole text gives each character the style of the one token that covers it, and
the default style where there is none: at every line break, and at every blank that stands in no
comment, string, quoted name or character literal. Nothing else counts, neither the state nor the
styles from before nor what the parser has counted. -/
theorem highlightEntire_styles_by_token (reader : Reader LineLexer) (rules : StyleRules)
    (state : FileState) (buffer : TextBuffer) :
    let highlighter : Highlighter LineLexer := { toReader := reader, rules := rules }
    let painted := highlighter.highlightEntire buffer.text state buffer
    let output := (Lexer.lex reader.lexer buffer.text 0).1
    let parsed := (({} : Statement.Parser).parse output.statements).1.flatten ++ output.invalid
    painted.result = .ok (some ⟨0, buffer.text.length, 0, buffer.text.lineCount - 1, false⟩) ∧
      painted.buffer.text = buffer.text ∧
      (∀ i, ∀ t ∈ parsed, t.CoversAt buffer.text i →
        (∀ s ∈ parsed, s.CoversAt buffer.text i → s = t) ∧
        painted.buffer.styleAt i = some (rules.resolve t)) ∧
      (∀ i < buffer.text.length, (∀ t ∈ parsed, ¬ t.CoversAt buffer.text i) →
        painted.buffer.styleAt i = some .default) ∧
      (∀ i, buffer.text[i]? = some '\n' → painted.buffer.styleAt i = some .default) ∧
      (∀ i c, buffer.text[i]? = some c → isBlank c = true →
        (∀ t ∈ parsed, t.CoversAt buffer.text i → t.kind.isQuoting = false) →
        painted.buffer.styleAt i = some .default) ∧
      ∀ (known : FileState) (other : TextBuffer) (parser : Statement.Parser),
        other.text = buffer.text →
        { highlighter with parser := parser }.highlightEntire buffer.text known other =
          painted := by
  intro highlighter painted output parsed
  have hpainted : painted = _ := @highlightEntire_eq highlighter rfl state buffer
  have hparsed (t : Token) : t ∈ parsed ↔ t ∈ (fullRows buffer.text).flatten :=
    Scan.mem_parsed buffer.text t
  have hdefault : ∀ i < buffer.text.length, (∀ t ∈ parsed, ¬ t.CoversAt buffer.text i) →
      painted.buffer.styleAt i = some .default := by
    intro i hi hnone
    rw [hpainted]
    apply Paint.fullStyles_of_uncovered rules hi
    exact fun t ht => hnone t ((hparsed t).2 ht)
  refine ⟨by rw [hpainted], by rw [hpainted], ?_, hdefault, ?_, ?_, ?_⟩
  · intro i t ht hcovers
    rw [hparsed] at ht
    refine ⟨fun s hs hscovers => Scan.coversAt_unique ((hparsed s).1 hs) ht hscovers hcovers, ?_⟩
    rw [hpainted]
    exact Paint.fullStyles_of_coversAt rules ht hcovers
  · intro i hi
    apply hdefault i (List.getElem?_eq_some_iff.1 hi).1
    intro t ht hcovers
    have hother := (Scan.char_of_coversAt ((hparsed t).1 ht) hcovers hi).1
    exact absurd hother (by decide)
  · intro i c hi hblank hplain
    apply hdefault i (List.getElem?_eq_some_iff.1 hi).1
    intro t ht hcovers
    have hsolid := (Scan.char_of_coversAt ((hparsed t).1 ht) hcovers hi).2 (hplain t ht hcovers)
    rw [hblank] at hsolid
    cases hsolid
  · intro known other parser hsame
    rw [hpainted, ← hsame]
    exact @highlightEntire_eq { highlighter with parser := parser } rfl known other

end Highlighter
end LiveHighlight
