import LiveHighlight.Pieces

/-! Text as a list of characters, addressed by offset and by row. An offset counts characters from
the start of the text and may point just past the end. Rows are counted from zero and end at a line
feed only; every other line terminator is an ordinary character. -/

namespace LiveHighlight

abbrev Text := List Char

/-- Offsets, lengths and rows are reported as 64-bit words, so a sum stops here. -/
def maxOffset : Nat := 0xffffffffffffffff

namespace Text

def isBreak (c : Char) : Bool := c = '\n'

/-- The rows of a text, without their line breaks. An empty text has one empty row. -/
def lines (text : Text) : List Text := pieces isBreak text

def lineCount (text : Text) : Nat := text.countP isBreak + 1

/-- The row an offset lies on. An offset past the end lies on the last row. -/
def rowAt (text : Text) (offset : Nat) : Nat := (text.take offset).countP isBreak

/-- The offset where a row starts. Rows past the last one start at the end of the text. -/
def rowStart : Text → Nat → Nat
  | _, 0 => 0
  | [], _ + 1 => 0
  | c :: rest, row + 1 => rowStart rest (if isBreak c then row else row + 1) + 1

/-- The offset where the row of `offset` starts: just past the last line break before it. -/
def lineStart (text : Text) (offset : Nat) : Nat :=
  ((text.take offset).reverse.dropWhile (!isBreak ·)).length

/-- The offset of the line break that ends the row of `offset`, or the end of the text. -/
def lineEnd (text : Text) (offset : Nat) : Nat :=
  min offset text.length + ((text.drop offset).takeWhile (!isBreak ·)).length

/-- The characters from `start` up to and not including `stop`. -/
def slice (text : Text) (start stop : Nat) : Text := (text.drop start).take (stop - start)

theorem length_lines (text : Text) : text.lines.length = text.lineCount :=
  length_pieces isBreak text

theorem lineStart_le (text : Text) (offset : Nat) : text.lineStart offset ≤ offset := by
  have h := List.Sublist.length_le
    (List.dropWhile_sublist (l := (text.take offset).reverse) (!isBreak ·))
  simp only [List.length_reverse, List.length_take] at h
  simp only [lineStart]
  omega

theorem lineEnd_le_length (text : Text) (offset : Nat) : text.lineEnd offset ≤ text.length := by
  have h := List.Sublist.length_le
    (List.takeWhile_sublist (l := text.drop offset) (!isBreak ·))
  simp only [List.length_drop] at h
  simp only [lineEnd]
  omega

end Text
end LiveHighlight
