import LiveHighlight.Highlight.Paint
import LiveHighlight.Highlight.Relex

/-! The highlighter: lexes what a request asks for and paints it into a buffer. While it is off,
requests change nothing. -/

namespace LiveHighlight

structure Highlighter (σ : Type) extends Reader σ where
  rules : StyleRules
  enabled : Bool := true

/-- What a painting request leaves behind. There is no window while highlighting is off. -/
structure Painted (σ : Type) where
  result : Except HighlightError (Option Window)
  state : FileState
  buffer : TextBuffer
  highlighter : Highlighter σ
  events : List Event := []

namespace Highlighter

variable {σ : Type}

/-- The row lexer, a new parser and the standard rules. -/
def standard : Highlighter LineLexer := { lexer := {}, rules := .standard }

/-- Paints the rows that wait in a state and drops them. -/
def apply (highlighter : Highlighter σ) (text : Text) (state : FileState) (buffer : TextBuffer) :
    TextBuffer × FileState × List Event :=
  let strokes := Paint.strokes highlighter.rules text state.rows
  (Paint.paint buffer strokes, { state with rows := state.rows.clear },
    (Paint.missed buffer strokes).map .staleSpan)

/-- Paints what was lexed, if that went well. -/
def finish (highlighter : Highlighter σ) (text : Text) (buffer : TextBuffer)
    (lexed : Outcome σ Window) : Painted σ :=
  let highlighter := { highlighter with toReader := lexed.reader }
  match lexed.result with
  | .error e => ⟨.error e, lexed.state, buffer, highlighter, lexed.events⟩
  | .ok window =>
    let (buffer, state, missed) := highlighter.apply text lexed.state buffer
    ⟨.ok (some window), state, buffer, highlighter, lexed.events ++ missed⟩

/-- Runs a request only while highlighting is on. -/
def whenEnabled (highlighter : Highlighter σ) (state : FileState) (buffer : TextBuffer)
    (run : Painted σ) : Painted σ :=
  if highlighter.enabled then run else ⟨.ok none, state, buffer, highlighter, []⟩

variable [Lexer σ]

/-- Lexes and paints the whole text. -/
def highlightEntire (highlighter : Highlighter σ) (text : Text) (state : FileState)
    (buffer : TextBuffer) : Painted σ :=
  highlighter.whenEnabled state buffer <|
    highlighter.finish text buffer (Relex.entire highlighter.toReader text state)

/-- Lexes and paints the rows that an edit can have changed. -/
def highlightEdit (highlighter : Highlighter σ) (text : Text) (edit : Edit) (state : FileState)
    (buffer : TextBuffer) : Painted σ :=
  highlighter.whenEnabled state buffer <|
    highlighter.finish text buffer (Relex.afterEdit highlighter.toReader text edit state)

/-- Paints the rows of a range again. -/
def repaint (highlighter : Highlighter σ) (text : Text) (start stop : Nat) (state : FileState)
    (buffer : TextBuffer) : Painted σ :=
  highlighter.whenEnabled state buffer <|
    highlighter.finish text buffer (Relex.range highlighter.toReader text start stop state)

end Highlighter
end LiveHighlight
