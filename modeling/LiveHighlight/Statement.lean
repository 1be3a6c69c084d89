import LiveHighlight.Token

/-! What is read off a statement: which references are called, and whether its brackets match. -/

namespace LiveHighlight.Statement

def isBang (token : Token) : Bool := token.kind = .punctuation && token.text = ['!']

/-- A reference becomes a called one; any other token stays. -/
def call (token : Token) : Token :=
  match token.kind with
  | .reference quoted _ => { token with kind := .reference quoted true }
  | _ => token

/-- Marks every reference with a bang right after it as called. -/
def markCalls : List Token → List Token
  | token :: next :: rest =>
    (if isBang next then call token else token) :: markCalls (next :: rest)
  | tokens => tokens

/-- The bracket that closes an opening one. -/
def closerOf : Text → Option Text
  | ['('] => some [')']
  | ['['] => some [']']
  | ['\x7b'] => some ['\x7d']
  | _ => none

def isCloser (text : Text) : Bool := text = [')'] || text = [']'] || text = ['\x7d']

inductive BracketFault where
  /-- A closing bracket with no opening one of its shape to close. -/
  | unmatched (token : Token)
  /-- The last opening bracket that nothing closes. -/
  | unclosed (token : Token)
  deriving DecidableEq, Repr

/-- Faults of the brackets that follow, where `unclosed` are still to be closed, the last one first.
A closing bracket takes the last opening one with it even where their shapes differ. -/
def bracketFaults : (unclosed : List Token) → List Token → List BracketFault
  | unclosed, [] => (unclosed.head?.map .unclosed).toList
  | unclosed, token :: rest =>
    if token.kind = .punctuation then
      if (closerOf token.text).isSome then bracketFaults (token :: unclosed) rest
      else if isCloser token.text then
        if (unclosed.head?.bind fun opener => closerOf opener.text) = some token.text then
          bracketFaults unclosed.tail rest
        else .unmatched token :: bracketFaults unclosed.tail rest
      else bracketFaults unclosed rest
    else bracketFaults unclosed rest

def faults (statement : List Token) : List BracketFault := bracketFaults [] statement

/-- A parser counts the statements with bracket faults it has met. -/
structure Parser where
  errorCount : Nat := 0
  deriving DecidableEq, Repr

namespace Parser

/-- Marks the calls of all statements and counts those with bracket faults. -/
def parse (parser : Parser) (statements : List (List Token)) : List (List Token) × Parser :=
  (statements.map markCalls,
    { errorCount := parser.errorCount + statements.countP fun s => !(faults s).isEmpty })

/-- Starts to count anew. -/
def reset (_ : Parser) : Parser := {}

end Parser
end LiveHighlight.Statement
