/-! The styles that characters are painted with. -/

namespace LiveHighlight

inductive TokenStyle where
  | keyword
  | controlFlow
  | string
  | char
  | number
  | boolean
  | comment
  | function
  | type
  | variable
  | quotedIdentifier
  | constant
  | operator
  | punctuation
  | separator
  | fieldAccess
  | error
  | default
  deriving DecidableEq, Repr, Inhabited

namespace TokenStyle

def all : List TokenStyle :=
  [.keyword, .controlFlow, .string, .char, .number, .boolean, .comment, .function, .type,
    .variable, .quotedIdentifier, .constant, .operator, .punctuation, .separator, .fieldAccess,
    .error, .default]

def name : TokenStyle → String
  | .keyword => "Keyword"
  | .controlFlow => "ControlFlow"
  | .string => "String"
  | .char => "Char"
  | .number => "Number"
  | .boolean => "Boolean"
  | .comment => "Comment"
  | .function => "Function"
  | .type => "Type"
  | .variable => "Variable"
  | .quotedIdentifier => "QuotedIdentifier"
  | .constant => "Constant"
  | .operator => "Operator"
  | .punctuation => "Punctuation"
  | .separator => "Separator"
  | .fieldAccess => "FieldAccess"
  | .error => "Error"
  | .default => "Default"

def ofName? (s : String) : Option TokenStyle := all.find? (·.name = s)

theorem mem_all (style : TokenStyle) : style ∈ all := by
  cases style <;> decide

end TokenStyle
end LiveHighlight
