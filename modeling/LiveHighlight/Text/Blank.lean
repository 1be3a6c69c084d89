import LiveHighlight.Text.Ranges

/-! Blanks: the characters with the White_Space property of Unicode 17. -/

namespace LiveHighlight.Text

/-- White space code points from 0x80 on. -/
def blankRanges : List (Nat × Nat) := [
  (0x85, 0x85), (0xA0, 0xA0), (0x1680, 0x1680), (0x2000, 0x200A), (0x2028, 0x2029),
  (0x202F, 0x202F), (0x205F, 0x205F), (0x3000, 0x3000)]

/-- White space, line breaks of every kind included. -/
def isBlank (c : Char) : Bool :=
  if c.toNat < 0x80 then c = ' ' || (0x09 ≤ c.toNat && c.toNat ≤ 0x0D)
  else inRanges blankRanges c.toNat

end LiveHighlight.Text
