import LiveHighlight.Token
import LiveHighlight.Text.Alphabetic
import LiveHighlight.Text.Numeric
import LiveHighlight.Text.Uppercase

/-! The kind and extent of the token that starts at a character which is not blank. Delimiters are
tried first, then quotes, numbers, words and symbols; of two symbols the longer one is taken. What
fits nothing is one invalid character. -/

namespace LiveHighlight.Lexeme

open Text

def isWordStart (c : Char) : Bool := isAlphabetic c || c = '_'

def isWordChar (c : Char) : Bool := isAlphabetic c || isNumeric c || c = '_'

/-- Number of characters up to and including the first occurrence of a pair. -/
def pastPair (pair : Char × Char) : Text → Option Nat
  | x :: y :: rest =>
    if x = pair.1 ∧ y = pair.2 then some 2 else (pastPair pair (y :: rest)).map (· + 1)
  | _ => none

def startsPair (pair : Char × Char) (c : Char) (rest : Text) : Bool :=
  c = pair.1 && rest.head? = some pair.2

/-- The construct whose opening delimiter stands at `c`. -/
def delimiter (c : Char) (rest : Text) : Option Construct :=
  if startsPair Construct.comment.opener c rest then some .comment
  else if startsPair Construct.string.opener c rest then some .string
  else none

/-- The kind of a construct that closes on the row it opens on. -/
def inlineKind : Construct → TokenKind
  | .comment => .comment
  | .string => .string

/-- What follows an opening quote: one character makes a literal, any other number a name. -/
def quote (rest : Text) : TokenKind × Nat :=
  let inside := (rest.takeWhile (· ≠ '\x60')).length
  if inside < rest.length then
    (if inside = 1 then .character else .reference true false, inside + 1)
  else (.invalid, 0)

def digits (text : Text) : Nat := (text.takeWhile Char.isDigit).length

/-- A point counts only with a digit after it. -/
def fraction : Text → Nat
  | '.' :: d :: rest => if d.isDigit then digits rest + 2 else 0
  | _ => 0

def suffixes : List Char := ['L', 'F', 'D', 'B', 'l', 'f', 'd', 'b']

/-- A suffix letter counts only if no word goes on after it. -/
def suffix : Text → Nat
  | c :: rest => if c ∈ suffixes ∧ ¬ rest.head?.any isWordChar then 1 else 0
  | [] => 0

/-- How far a number goes on after its first digit. -/
def numberTail (rest : Text) : Nat :=
  let whole := digits rest
  let part := fraction (rest.drop whole)
  whole + part + suffix (rest.drop (whole + part))

def keywords : List Text :=
  [['i', 'm', 'p', 'o', 'r', 't'], ['p', 'a', 'c', 'k', 'a', 'g', 'e'],
    ['p', 'u', 'b', 'l', 'i', 'c'], ['p', 'r', 'i', 'v', 'a', 't', 'e']]

def wordKind (word : Text) : TokenKind :=
  if word = ['t', 'r', 'u', 'e'] ∨ word = ['f', 'a', 'l', 's', 'e'] then .boolean
  else if word = ['n', 'u', 'l', 'l'] then .null
  else if keywords.contains word then .keyword
  else if word.all (· = '_') then .sword
  else if word.head?.any isUppercase then .typeReference
  else .reference false false

def controlPairs : List (Char × Char) := [('?', '?'), ('<', '>'), ('-', '-'), ('+', '+')]

def operatorPairs : List (Char × Char) :=
  [('<', '<'), ('>', '>'), ('<', '='), ('>', '='), ('!', '='), ('=', '=')]

def operators : List Char := ['=', '+', '-', '*', '/', '%', '<', '>', '&', '|', '^', '?']

def punctuation : List Char := ['(', ')', '[', ']', '\x7b', '\x7d', ':', '.', '!']

def pairKind (pair : Char × Char) : Option TokenKind :=
  if pair ∈ controlPairs then some .controlFlow
  else if pair ∈ operatorPairs then some .operator
  else none

def symbolKind (c : Char) : TokenKind :=
  if c ∈ operators then .operator
  else if c ∈ punctuation then .punctuation
  else if c = ',' ∨ c = ';' then .separator
  else if c = '@' ∨ c = '#' then .fieldAccess
  else .invalid

/-- A symbol, or an invalid character where there is none. -/
def symbol (c : Char) (rest : Text) : TokenKind × Nat :=
  match rest.head?.bind fun d => pairKind (c, d) with
  | some kind => (kind, 1)
  | none => (symbolKind c, 0)

/-- The kind of the token that starts with `c`, and how many characters of `rest` belong to it. -/
def read (c : Char) (rest : Text) : TokenKind × Nat :=
  match delimiter c rest with
  | some construct =>
    match pastPair construct.closer (rest.drop 1) with
    | some n => (inlineKind construct, n + 1)
    | none => (.fragment construct .opening, rest.length)
  | none =>
    if c = '\x60' then quote rest
    else if c.isDigit then (.number, numberTail rest)
    else if isWordStart c then
      let tail := rest.takeWhile isWordChar
      (wordKind (c :: tail), tail.length)
    else symbol c rest

end LiveHighlight.Lexeme
