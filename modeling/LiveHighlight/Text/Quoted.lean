import LiveHighlight.Text
import LiveHighlight.Text.Combining
import LiveHighlight.Text.Unprintable

/-! Text in double quotes, for messages and listings. A character that would not show as itself is
written as an escape. -/

namespace LiveHighlight.Text

/-- Code point in lower case hexadecimal, between braces and without padding. -/
def codeEscape (c : Char) : Text :=
  ['\\', 'u', '\x7b'] ++ Nat.toDigits 16 c.toNat ++ ['\x7d']

def escape (c : Char) : Text :=
  if c = '\x00' then ['\\', '0']
  else if c = '\t' then ['\\', 't']
  else if c = '\r' then ['\\', 'r']
  else if c = '\n' then ['\\', 'n']
  else if c = '\x22' then ['\\', '\x22']
  else if c = '\\' then ['\\', '\\']
  else if isCombining c || isUnprintable c then codeEscape c
  else [c]

def quoted (text : Text) : Text := ['\x22'] ++ text.flatMap escape ++ ['\x22']

end LiveHighlight.Text
