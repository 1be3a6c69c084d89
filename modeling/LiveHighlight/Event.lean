import LiveHighlight.Edit
import LiveHighlight.Error
import LiveHighlight.Lexer
import LiveHighlight.Statement

/-! Events worth a line in a log, with their level and wording. -/

namespace LiveHighlight

/-- The rows that one request lexed. The offsets run from a line start to a line end. -/
structure Window where
  start : Nat
  stop : Nat
  startRow : Nat
  endRow : Nat
  /-- Whether an unclosed construct made the window run to the end of the text. -/
  tailRebuilt : Bool := false
  deriving DecidableEq, Repr

inductive Level where
  | error
  | warn
  | info
  | debug
  | trace
  deriving DecidableEq, Repr

def Level.name : Level → String
  | .error => "ERROR"
  | .warn => "WARN"
  | .info => "INFO"
  | .debug => "DEBUG"
  | .trace => "TRACE"

inductive Event where
  | unexpectedCharacter (token : Token)
  | bracketFault (fault : Statement.BracketFault)
  | highlighted (rows regions : Nat)
  | relexed (window : Window) (edit : Edit)
  | repainting (window : Window)
  | tailRebuilt (opening : Location) (endRow dropped : Nat)
  | staleSpan (error : BufferError)
  | stateCreated (path : String)
  | stateMissing (path : String)
  | highlightFailed (path : String) (error : HighlightError)
  | fileOpened (path : String) (lines : Nat)
  | fileClosed (path : String)
  deriving DecidableEq, Repr

namespace Event

def level : Event → Level
  | .unexpectedCharacter _ | .bracketFault _ => .warn
  | .highlighted _ _ | .relexed _ _ | .repainting _ | .tailRebuilt _ _ _ => .debug
  | .staleSpan _ | .stateMissing _ => .trace
  | .stateCreated _ | .fileClosed _ => .debug
  | .highlightFailed _ _ => .error
  | .fileOpened _ _ => .info

def quote (text : Text) : String := String.ofList text.quoted

def showRows (window : Window) : String :=
  toString window.startRow ++ "..=" ++ toString window.endRow ++ " (" ++ toString window.start ++
    ".." ++ toString window.stop ++ ")"

def showKind : EditKind → String
  | .insert => "Insert"
  | .remove => "Remove"

def showEdit (edit : Edit) : String :=
  "Edit \x7b offset: " ++ toString edit.offset ++ ", length: " ++ toString edit.length ++
    ", kind: " ++ showKind edit.kind ++ " \x7d"

def message : Event → String
  | .unexpectedCharacter token =>
    "unexpected character " ++ quote token.text ++ " at " ++ token.location.display
  | .bracketFault (.unmatched token) =>
    "unmatched " ++ quote token.text ++ " at " ++ token.location.display
  | .bracketFault (.unclosed token) =>
    "unclosed " ++ quote token.text ++ " at " ++ token.location.display
  | .highlighted rows regions =>
    "highlighted " ++ toString rows ++ " rows, " ++ toString regions ++ " regions"
  | .relexed window edit => "re-lexed rows " ++ showRows window ++ " for " ++ showEdit edit
  | .repainting window => "repainting rows " ++ showRows window
  | .tailRebuilt opening endRow dropped =>
    "unclosed construct at " ++ opening.display ++ " extends the window to row " ++
      toString endRow ++ ", " ++ toString dropped ++ " stale regions dropped"
  | .staleSpan error => "skipping stale span: " ++ error.message
  | .stateCreated path => "created highlight state for " ++ path
  | .stateMissing path => "no highlight state for " ++ path
  | .highlightFailed path error => "highlighting " ++ path ++ " failed: " ++ error.message
  | .fileOpened path lines => "opened " ++ path ++ " (" ++ toString lines ++ " lines)"
  | .fileClosed path => "closed " ++ path

/-- What a lexer has to say about a text, if it is asked to report. -/
def ofLexing (output : LexOutput) : List Event := output.invalid.map .unexpectedCharacter

/-- What a parser has to say about statements, if it is asked to report. -/
def ofParsing (statements : List (List Token)) : List Event :=
  (statements.flatMap Statement.faults).map .bracketFault

end Event
end LiveHighlight
