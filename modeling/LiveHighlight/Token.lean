import LiveHighlight.Text

/-! Tokens: classified pieces of a row. A comment or a string may run over several rows; each row
then holds one fragment of it as a token of its own. -/

namespace LiveHighlight

/-- Where a token starts. The column counts characters. -/
structure Location where
  row : Nat
  column : Nat
  deriving DecidableEq, Repr, Inhabited

/-- Reading order: by row, then by column. -/
def Location.le (a b : Location) : Bool :=
  a.row < b.row || (a.row = b.row && a.column ≤ b.column)

/-- What may run over several rows. -/
inductive Construct where
  | comment
  | string
  deriving DecidableEq, Repr

/-- The two characters that open a construct. -/
def Construct.opener : Construct → Char × Char
  | .comment => ('~', ':')
  | .string => ('\x60', '\x60')

/-- The two characters that close a construct. -/
def Construct.closer : Construct → Char × Char
  | .comment => (':', '~')
  | .string => ('\x60', '\x60')

/-- The part of a construct that one row holds. A row that holds all of it has no fragment. -/
inductive Part where
  | opening
  | middle
  | closing
  deriving DecidableEq, Repr

inductive TokenKind where
  | reference (quoted called : Bool)
  | typeReference
  | keyword
  | controlFlow
  | operator
  | punctuation
  | separator
  | fieldAccess
  /-- A name made of underscores only. -/
  | sword
  | number
  | boolean
  | null
  | character
  | string
  | comment
  | fragment (construct : Construct) (part : Part)
  | invalid
  deriving DecidableEq, Repr

structure Token where
  kind : TokenKind
  text : Text
  location : Location
  deriving DecidableEq, Repr

namespace Token

def length (token : Token) : Nat := token.text.length

/-- The construct that the token leaves open at the end of its row. -/
def opens (token : Token) : Option Construct :=
  match token.kind with
  | .fragment construct .opening => some construct
  | _ => none

def fragment (token : Token) : Option (Construct × Part) :=
  match token.kind with
  | .fragment construct part => some (construct, part)
  | _ => none

/-- Moves the token down by some rows. -/
def lower (token : Token) (rows : Nat) : Token :=
  { token with location := { token.location with row := token.location.row + rows } }

/-- Moves the token right by some columns. -/
def indent (token : Token) (columns : Nat) : Token :=
  { token with location := { token.location with column := token.location.column + columns } }

end Token
end LiveHighlight
