import LiveHighlight.Token.Scan

/-! Lexers a highlighter can work with. A lexer may carry a state from one text to the next. -/

namespace LiveHighlight

/-- Lexes a text whose first row has the given number, and goes on to its next state. A lexer is
reset before each text. -/
class Lexer (σ : Type) where
  lex : σ → Text → Nat → LexOutput × σ
  reset : σ → σ

/-- The lexer that scans row by row. It keeps nothing between texts. -/
structure LineLexer where
  deriving DecidableEq, Repr

instance : Lexer LineLexer where
  lex lexer text row := (Scan.lex text row, lexer)
  reset lexer := lexer

/-- A lexer that ignores the text and answers with given outputs in turn. The last one repeats, and
a reset does not start over. -/
structure Script where
  outputs : List LexOutput
  /-- Whether rows of the outputs count from the first row of the text. -/
  relative : Bool := false
  deriving DecidableEq, Repr

namespace Script

def output (script : Script) (row : Nat) : LexOutput :=
  let next := script.outputs.headD {}
  if script.relative then
    { statements := next.statements.map fun statement => statement.map (·.lower row)
      invalid := next.invalid.map (·.lower row) }
  else next

def advance (script : Script) : Script :=
  match script.outputs with
  | _ :: next :: rest => { script with outputs := next :: rest }
  | _ => script

end Script

instance : Lexer Script where
  lex script _ row := (script.output row, script.advance)
  reset script := script

end LiveHighlight
