import LiveHighlight.Token.Lexeme
import LiveHighlight.Text.Blank

/-! Scanning a text row by row. A row is scanned knowing which construct is open before it and tells
which one is open after it. The tokens are then grouped into statements, which end at a comma and at
the end of a row that leaves nothing open; invalid tokens are kept apart. -/

namespace LiveHighlight

/-- What lexing gives: the valid tokens by statement, and the invalid ones. -/
structure LexOutput where
  statements : List (List Token) := []
  invalid : List Token := []
  deriving DecidableEq, Repr

def LexOutput.tokens (output : LexOutput) : List Token := output.statements.flatten

namespace Scan

open Text

/-- Tokens of a piece of a row with nothing open before it. The first `skip` characters belong to
the token before them. -/
def tokens (row : Nat) : (column skip : Nat) → Text → List Token
  | _, _, [] => []
  | column, skip + 1, _ :: rest => tokens row (column + 1) skip rest
  | column, 0, c :: rest =>
    if isBlank c then tokens row (column + 1) 0 rest
    else
      let lexeme := Lexeme.read c rest
      ⟨lexeme.1, c :: rest.take lexeme.2, ⟨row, column⟩⟩ :: tokens row (column + 1) lexeme.2 rest

/-- The tokens of one row, valid or not, and the construct that is open after it. -/
structure Line where
  tokens : List Token
  after : Option Construct
  deriving DecidableEq, Repr

/-- Only the last token of a row can leave a construct open. -/
def opened (tokens : List Token) : Option Construct := tokens.getLast?.bind Token.opens

def line (before : Option Construct) (row : Nat) (text : Text) : Line :=
  match before with
  | none =>
    let found := tokens row 0 0 text
    ⟨found, opened found⟩
  | some construct =>
    match Lexeme.pastPair construct.closer text with
    | some n =>
      let found := tokens row n 0 (text.drop n)
      ⟨⟨.fragment construct .closing, text.take n, ⟨row, 0⟩⟩ :: found, opened found⟩
    | none =>
      -- a blank row inside a construct has no token
      ⟨if text = [] then [] else [⟨.fragment construct .middle, text, ⟨row, 0⟩⟩], some construct⟩

def lines : (before : Option Construct) → (row : Nat) → List Text → List Line
  | _, _, [] => []
  | before, row, text :: rest =>
    let scanned := line before row text
    scanned :: lines scanned.after (row + 1) rest

def isInvalid (token : Token) : Bool := token.kind = .invalid

def isComma (token : Token) : Bool := token.kind = .separator && token.text = [',']

/-- A valid token, or `none` where a statement ends. -/
abbrev Mark := Option Token

def marks (line : Line) : List Mark :=
  ((line.tokens.filter (!isInvalid ·)).flatMap fun token =>
    if isComma token then [some token, none] else [some token]) ++
  (if line.after.isNone then [none] else [])

/-- The statements between the marks that end one. Empty statements do not count. -/
def statements (marks : List Mark) : List (List Token) :=
  ((pieces Option.isNone marks).map fun piece => piece.filterMap id).filter (!·.isEmpty)

/-- Lexes a text whose first row has the number `row`. -/
def lex (text : Text) (row : Nat) : LexOutput :=
  let scanned := lines none row text.lines
  { statements := statements (scanned.flatMap marks)
    invalid := scanned.flatMap fun line => line.tokens.filter isInvalid }

end Scan
end LiveHighlight
