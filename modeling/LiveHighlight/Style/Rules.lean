import LiveHighlight.Style
import LiveHighlight.Token

/-! Rules that give each token its style. A rule for the role a token plays wins over the rule for
its class; a token with no rule has the default style. -/

namespace LiveHighlight

/-- Token kinds without what varies inside a kind. -/
inductive TokenClass where
  | reference
  | typeReference
  | keyword
  | controlFlow
  | operator
  | punctuation
  | separator
  | fieldAccess
  | sword
  | number
  | boolean
  | null
  | character
  | string
  | comment
  | multilineComment
  | multilineString
  | invalid
  deriving DecidableEq, Repr

namespace TokenClass

def ofKind : TokenKind → TokenClass
  | .reference _ _ => .reference
  | .typeReference => .typeReference
  | .keyword => .keyword
  | .controlFlow => .controlFlow
  | .operator => .operator
  | .punctuation => .punctuation
  | .separator => .separator
  | .fieldAccess => .fieldAccess
  | .sword => .sword
  | .number => .number
  | .boolean => .boolean
  | .null => .null
  | .character => .character
  | .string => .string
  | .comment => .comment
  | .fragment .comment _ => .multilineComment
  | .fragment .string _ => .multilineString
  | .invalid => .invalid

def all : List TokenClass :=
  [.reference, .typeReference, .keyword, .controlFlow, .operator, .punctuation, .separator,
    .fieldAccess, .sword, .number, .boolean, .null, .character, .string, .comment,
    .multilineComment, .multilineString, .invalid]

def name : TokenClass → String
  | .reference => "Reference"
  | .typeReference => "TypeReference"
  | .keyword => "Keyword"
  | .controlFlow => "ControlFlow"
  | .operator => "Operator"
  | .punctuation => "Punctuation"
  | .separator => "Separator"
  | .fieldAccess => "FieldAccess"
  | .sword => "Sword"
  | .number => "Number"
  | .boolean => "Boolean"
  | .null => "Null"
  | .character => "Character"
  | .string => "String"
  | .comment => "Comment"
  | .multilineComment => "MultilineComment"
  | .multilineString => "MultilineString"
  | .invalid => "Invalid"

theorem mem_all (c : TokenClass) : c ∈ all := by
  cases c <;> decide

end TokenClass

/-- Token classes that are given one rule together. -/
inductive Category where
  | literal
  | comment
  | delimiter
  | identifier
  deriving DecidableEq, Repr

def Category.classes : Category → List TokenClass
  | .literal => [.number, .boolean, .null, .character, .string, .multilineString]
  | .comment => [.comment, .multilineComment]
  | .delimiter => [.punctuation, .separator, .fieldAccess]
  | .identifier => [.reference, .typeReference, .sword]

/-- Roles that a token may play beyond its class. -/
inductive Role where
  | variable
  | quotedIdentifier
  | functionCall
  /-- A type name that introduces a declaration. -/
  | typeKeyword
  deriving DecidableEq, Repr

namespace Role

def typeKeywords : List Text :=
  [['T', 'y', 'p', 'e'], ['A', 'b', 's', 't', 'r', 'a', 'c', 't', 'T', 'y', 'p', 'e'],
    ['I', 'n', 't', 'e', 'r', 'f', 'a', 'c', 'e'], ['E', 'n', 'u', 'm'],
    ['R', 'e', 'c', 'o', 'r', 'd'], ['L', 'i', 'b', 'r', 'a', 'r', 'y'],
    ['T', 'e', 's', 't', 'S', 'u', 'i', 't', 'e']]

/-- A call counts before quotes. -/
def ofToken (token : Token) : Option Role :=
  match token.kind with
  | .reference _ true => some .functionCall
  | .reference true false => some .quotedIdentifier
  | .reference false false => some .variable
  | .typeReference => if token.text ∈ typeKeywords then some .typeKeyword else none
  | _ => none

end Role

structure StyleRules where
  ofClass : TokenClass → Option TokenStyle
  ofRole : Role → Option TokenStyle

namespace StyleRules

/-- No rules: every token has the default style. -/
def empty : StyleRules := ⟨fun _ => none, fun _ => none⟩

def setClass (rules : StyleRules) (c : TokenClass) (style : TokenStyle) : StyleRules :=
  { rules with ofClass := fun d => if d = c then some style else rules.ofClass d }

def setCategory (rules : StyleRules) (category : Category) (style : TokenStyle) : StyleRules :=
  category.classes.foldl (fun rules c => rules.setClass c style) rules

def setRole (rules : StyleRules) (role : Role) (style : TokenStyle) : StyleRules :=
  { rules with ofRole := fun r => if r = role then some style else rules.ofRole r }

def resolve (rules : StyleRules) (token : Token) : TokenStyle :=
  match (Role.ofToken token).bind rules.ofRole with
  | some style => style
  | none => (rules.ofClass (.ofKind token.kind)).getD .default

def standard : StyleRules where
  ofClass
    | .reference => none
    | .typeReference => some .type
    | .keyword => some .keyword
    | .controlFlow => some .controlFlow
    | .operator => some .operator
    | .punctuation => some .punctuation
    | .separator => some .separator
    | .fieldAccess => some .fieldAccess
    | .sword => some .constant
    | .number => some .number
    | .boolean => some .boolean
    | .null => some .constant
    | .character => some .char
    | .string => some .string
    | .comment => some .comment
    | .multilineComment => some .comment
    | .multilineString => some .string
    | .invalid => some .error
  ofRole
    | .variable => some .variable
    | .quotedIdentifier => some .quotedIdentifier
    | .functionCall => some .function
    | .typeKeyword => some .keyword

end StyleRules
end LiveHighlight
