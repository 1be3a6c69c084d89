import LiveHighlight.Edit
import LiveHighlight.Error
import LiveHighlight.Style

/-! A text with one style for each of its characters. -/

namespace LiveHighlight

structure TextBuffer where
  text : Text := []
  styles : List TokenStyle := []
  styled : styles.length = text.length := by rfl
  deriving DecidableEq

/-- An edit that was made, with the text it put in or took out. -/
structure BufferChange where
  edit : Edit
  text : Text
  deriving DecidableEq, Repr

/-- A maximal range of characters with one style. -/
structure StyleRun where
  start : Nat
  stop : Nat
  style : TokenStyle
  deriving DecidableEq, Repr

namespace TextBuffer

/-- A text without styles. -/
def ofText (text : Text) : TextBuffer :=
  ⟨text, .replicate text.length .default, by simp⟩

def length (buffer : TextBuffer) : Nat := buffer.text.length

/-- The error for a range of some length that starts at an offset. -/
def outside (buffer : TextBuffer) (offset length : Nat) : BufferError :=
  ⟨offset, min (offset + length) maxOffset, buffer.length⟩

/-- Puts a text in. Its characters have the default style. -/
def insert (buffer : TextBuffer) (offset : Nat) (text : Text) :
    Except BufferError (BufferChange × TextBuffer) :=
  if offset ≤ buffer.length then
    .ok (⟨⟨offset, text.length, .insert⟩, text⟩,
      ⟨buffer.text.take offset ++ text ++ buffer.text.drop offset,
        buffer.styles.take offset ++ .replicate text.length .default ++ buffer.styles.drop offset,
        by simp [buffer.styled]⟩)
  else .error (buffer.outside offset 0)

/-- Takes out some characters. -/
def remove (buffer : TextBuffer) (offset length : Nat) :
    Except BufferError (BufferChange × TextBuffer) :=
  if offset + length ≤ buffer.length then
    .ok (⟨⟨offset, length, .remove⟩, buffer.text.slice offset (offset + length)⟩,
      ⟨buffer.text.take offset ++ buffer.text.drop (offset + length),
        buffer.styles.take offset ++ buffer.styles.drop (offset + length),
        by simp [buffer.styled]⟩)
  else .error (buffer.outside offset length)

def styleAt (buffer : TextBuffer) (offset : Nat) : Option TokenStyle := buffer.styles[offset]?

/-- Some characters of the text. -/
def read (buffer : TextBuffer) (offset length : Nat) : Except BufferError Text :=
  if offset + length ≤ buffer.length then .ok (buffer.text.slice offset (offset + length))
  else .error (buffer.outside offset length)

/-- Gives some characters a style. -/
def setStyle (buffer : TextBuffer) (offset length : Nat) (style : TokenStyle) :
    Except BufferError TextBuffer :=
  if h : offset + length ≤ buffer.length then
    .ok ⟨buffer.text,
      buffer.styles.take offset ++ .replicate length style ++ buffer.styles.drop (offset + length),
      by
        have := buffer.styled
        simp only [TextBuffer.length] at h
        simp only [List.length_append, List.length_take, List.length_replicate, List.length_drop]
        omega⟩
  else .error (buffer.outside offset length)

/-- The runs of a list of styles whose first one stands at an offset. -/
def runsFrom (offset : Nat) : List TokenStyle → List StyleRun
  | [] => []
  | style :: rest =>
    match runsFrom (offset + 1) rest with
    | [] => [⟨offset, offset + 1, style⟩]
    | run :: runs =>
      if run.style = style then ⟨offset, run.stop, style⟩ :: runs
      else ⟨offset, offset + 1, style⟩ :: run :: runs

/-- Neighbouring characters of one style, grouped. -/
def styleRuns (buffer : TextBuffer) : List StyleRun := runsFrom 0 buffer.styles

end TextBuffer
end LiveHighlight
