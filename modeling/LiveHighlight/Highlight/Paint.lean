import LiveHighlight.Buffer
import LiveHighlight.Rows
import LiveHighlight.Style.Rules

/-! Painting row buckets. Each row is first given the default style, its line break included, and
then each token its own style. What the buffer does not have is left out. -/

namespace LiveHighlight.Paint

/-- Some characters and the style they are given. -/
structure Stroke where
  offset : Nat
  length : Nat
  style : TokenStyle
  deriving DecidableEq, Repr

def rowStrokes (rules : StyleRules) (text : Text) (tokens : List Token) (row : Nat) :
    List Stroke :=
  let start := text.rowStart row
  ⟨start, text.rowStart (row + 1) - start, .default⟩ ::
    tokens.map fun t => ⟨start + t.location.column, t.length, rules.resolve t⟩

/-- The strokes for the buckets of rows that the text has. -/
def strokes (rules : StyleRules) (text : Text) (buckets : RowBuckets) : List Stroke :=
  (buckets.numbered.takeWhile fun (_, row) => row < text.lineCount).flatMap fun (tokens, row) =>
    rowStrokes rules text tokens row

def stroke (buffer : TextBuffer) (s : Stroke) : TextBuffer :=
  (buffer.setStyle s.offset s.length s.style).toOption.getD buffer

def paint (buffer : TextBuffer) (strokes : List Stroke) : TextBuffer :=
  strokes.foldl stroke buffer

/-- The strokes that miss the buffer. Painting does not change which ones do. -/
def missed (buffer : TextBuffer) (strokes : List Stroke) : List BufferError :=
  strokes.filterMap fun s =>
    match buffer.setStyle s.offset s.length s.style with
    | .ok _ => none
    | .error e => some e

end LiveHighlight.Paint
