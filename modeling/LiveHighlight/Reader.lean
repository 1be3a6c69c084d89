import LiveHighlight.Lexer
import LiveHighlight.Statement

/-! Reading a text: a lexer makes tokens of it and a parser looks at the statements they form. Both
are kept from one text to the next, and both are reset before each text. -/

namespace LiveHighlight

/-- A lexer with the parser that is given its statements. -/
structure Reader (σ : Type) where
  lexer : σ
  parser : Statement.Parser := {}

/-- Lexes a text whose first row has the given number, and marks the calls of its statements. -/
def Reader.read {σ : Type} [Lexer σ] (reader : Reader σ) (text : Text) (row : Nat) :
    LexOutput × Reader σ :=
  let (output, lexer) := Lexer.lex (Lexer.reset reader.lexer) text row
  let (statements, parser) := reader.parser.reset.parse output.statements
  ({ output with statements := statements }, ⟨lexer, parser⟩)

end LiveHighlight
