import LiveHighlight.Token
import LiveHighlight.Text.Quoted

/-! The written form of tokens and of what they are made of, as messages show them. -/

namespace LiveHighlight

def Location.display (l : Location) : String :=
  "(" ++ toString l.row ++ ", " ++ toString l.column ++ ")"

def Construct.name : Construct → String
  | .comment => "Comment"
  | .string => "String"

def Part.name : Part → String
  | .opening => "Opening"
  | .middle => "Middle"
  | .closing => "Closing"

def TokenKind.display : TokenKind → String
  | .reference quoted called =>
    "Reference \x7b quoted: " ++ toString quoted ++ ", called: " ++ toString called ++ " \x7d"
  | .typeReference => "TypeReference"
  | .keyword => "Keyword"
  | .controlFlow => "ControlFlow"
  | .operator => "Operator"
  | .punctuation => "Punctuation"
  | .separator => "Separator"
  | .fieldAccess => "FieldAccess"
  | .sword => "Sword"
  | .number => "Number"
  | .boolean => "Boolean"
  | .null => "Null"
  | .character => "Character"
  | .string => "String"
  | .comment => "Comment"
  | .fragment construct part =>
    "Multiline(MultilineToken \x7b kind: " ++ construct.name ++ ", fragment: " ++ part.name ++
      " \x7d)"
  | .invalid => "Invalid"

def Token.display (t : Token) : String :=
  t.kind.display ++ "(" ++ String.ofList t.text.quoted ++ ") at " ++ t.location.display

end LiveHighlight
