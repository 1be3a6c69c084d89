import LiveHighlight.Style

/-! Themes: a colour for each style. A style without a colour of its own shows in the colour of
plain text. -/

namespace LiveHighlight

/-- A colour with channels from zero to one. -/
structure Color where
  red : Float32
  green : Float32
  blue : Float32
  alpha : Float32

/-- A channel as a byte: clamped, scaled and rounded, halves away from zero. What is no number
gives zero. -/
def channelByte (value : Float32) : UInt8 :=
  let clamped := if value < 0 then 0 else if value > 1 then 1 else value
  (clamped * 255).round.toUInt8

/-- The three bytes of a colour. Transparency is dropped. -/
def Color.rgb (color : Color) : List Nat :=
  [color.red, color.green, color.blue].map fun value => (channelByte value).toNat

structure Theme where
  name : String
  background : Color
  foreground : Color
  colors : TokenStyle → Option Color

namespace Theme

def solid (red green blue : Float32) : Color := ⟨red, green, blue, 1.0⟩

/-- A theme in which every style shows as plain text. -/
def plain (name : String) : Theme :=
  { name := name
    background := solid 0.102 0.102 0.122
    foreground := solid 0.902 0.902 0.902
    colors := fun _ => none }

def setColor (theme : Theme) (style : TokenStyle) (color : Color) : Theme :=
  { theme with colors := fun s => if s = style then some color else theme.colors s }

def color (theme : Theme) (style : TokenStyle) : Color :=
  (theme.colors style).getD theme.foreground

def dark : Theme :=
  let text := solid 0.682 0.710 0.749
  let purple := solid 0.769 0.471 0.839
  let green := solid 0.596 0.765 0.475
  let orange := solid 0.824 0.608 0.467
  let gold := solid 0.890 0.780 0.478
  let gray := solid 0.600 0.627 0.667
  { name := "Dark"
    background := solid 0.102 0.102 0.122
    foreground := text
    colors := fun
      | .keyword | .controlFlow => some purple
      | .string | .char => some green
      | .number | .boolean | .constant => some orange
      | .comment => some (solid 0.455 0.506 0.557)
      | .function => some (solid 0.380 0.686 0.937)
      | .type | .fieldAccess => some gold
      | .variable => some (solid 0.878 0.439 0.439)
      | .quotedIdentifier => some (solid 0.337 0.788 0.784)
      | .operator | .default => some text
      | .punctuation | .separator => some gray
      | .error => some (solid 1.0 0.333 0.333) }

def light : Theme :=
  let text := solid 0.231 0.259 0.322
  let purple := solid 0.627 0.314 0.706
  let green := solid 0.306 0.604 0.024
  let blue := solid 0.114 0.404 0.804
  { name := "Light"
    background := solid 0.984 0.984 0.984
    foreground := text
    colors := fun
      | .keyword | .controlFlow => some purple
      | .string | .char => some green
      | .number | .boolean | .constant => some blue
      | .comment => some (solid 0.502 0.549 0.596)
      | .function => some (solid 0.071 0.345 0.667)
      | .type => some (solid 0.016 0.490 0.490)
      | .variable => some (solid 0.753 0.204 0.204)
      | .error => some (solid 0.800 0.0 0.0)
      | .default => some text
      | _ => none }

instance : Inhabited Theme := ⟨dark⟩

end Theme
end LiveHighlight
