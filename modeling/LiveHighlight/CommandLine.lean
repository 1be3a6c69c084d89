import LiveHighlight.Session
import LiveHighlight.Style.Theme

/-! The command line: highlights one file and prints it in colour, or lists its styled runs. -/

namespace LiveHighlight.CommandLine

structure Options where
  /-- Use the light theme in place of the dark one. -/
  light : Bool := false
  /-- List the styled runs in place of coloured text. -/
  plain : Bool := false
  path : String
  deriving DecidableEq, Repr

inductive UsageError where
  | missingFile
  | unknownOption (option : String)
  | severalFiles
  deriving DecidableEq, Repr

def UsageError.message : UsageError → String
  | .missingFile => "missing FILE"
  | .unknownOption option => "unknown option " ++ option
  | .severalFiles => "only one FILE may be given"

def usage : String := "usage: tint [--light] [--plain] FILE"

/-- Reads the arguments in order. The first one that does not fit is the error. -/
def parseFrom (light plain : Bool) : (path : Option String) → List String →
    Except UsageError Options
  | none, [] => .error .missingFile
  | some path, [] => .ok ⟨light, plain, path⟩
  | path, argument :: rest =>
    if argument = "--light" then parseFrom true plain path rest
    else if argument = "--plain" then parseFrom light true path rest
    else if argument.startsWith "--" then .error (.unknownOption argument)
    else if path.isSome then .error .severalFiles
    else parseFrom light plain (some argument) rest

def parse (arguments : List String) : Except UsageError Options :=
  parseFrom false false none arguments

/-- The escape sequence that sets the colour of the text that follows. -/
def colorSequence (color : Color) : Text :=
  let channels := color.rgb.map fun n => toString n
  ("\x1b[38;2;" ++ ";".intercalate channels ++ "m").toList

def resetSequence : Text := "\x1b[0m".toList

/-- The text with each run in the colour of its style. -/
def colored (theme : Theme) (buffer : TextBuffer) : Text :=
  (buffer.styleRuns.flatMap fun run =>
    colorSequence (theme.color run.style) ++ buffer.text.slice run.start run.stop) ++
  resetSequence

/-- One line for a run: its bounds, its style and its text in quotes. -/
def runLine (text : Text) (run : StyleRun) : Text :=
  (toString run.start ++ ".." ++ toString run.stop ++ " " ++ run.style.name ++ " ").toList ++
    (text.slice run.start run.stop).quoted ++ ['\n']

/-- The runs that have a style, one to a line. -/
def listing (buffer : TextBuffer) : Text :=
  (buffer.styleRuns.filter (·.style ≠ .default)).flatMap (runLine buffer.text)

/-- What the program prints, and the code it exits with. -/
structure Report where
  exitCode : Nat
  output : Text := []
  /-- What goes to the error stream, each followed by a line break. -/
  messages : List String
  deriving DecidableEq, Repr

/-- A text with its rows after the first set in by four columns. -/
def indented (text : String) : String := "\n    ".intercalate (text.splitOn "\n")

/-- An entry of the log. The level takes five columns. -/
def logLine (level : Level) (source text : String) : String :=
  let padded := level.name ++ String.ofList (.replicate (5 - level.name.length) ' ')
  "[" ++ padded ++ " " ++ source ++ "] " ++ indented text

def program : String := "tint"

/-- Only what is informative or worse is logged. -/
def isLogged (event : Event) : Bool :=
  match event.level with
  | .error | .warn | .info => true
  | .debug | .trace => false

def logEvents (events : List Event) : List String :=
  (events.filter isLogged).map fun event =>
    logLine event.level "tint_core::editor" event.message

/-- The highlighted file as the options ask for it. -/
def render (options : Options) (buffer : TextBuffer) : Text :=
  if options.plain then listing buffer
  else colored (if options.light then Theme.light else Theme.dark) buffer

/-- Highlights the content of a file. A failure comes with the lines logged up to it. -/
def highlight (options : Options) (text : Text) :
    Except (String × List String) (Text × List String) :=
  let (editor, event) := (Editor.new {} (Editor.untitledPath 1)).opened options.path text
  let ran := editor.runPending Highlighter.standard {} (.ofSpelling options.path)
  let messages := logEvents (event :: ran.events)
  match ran.result with
  | .error e => .error (e.message, messages)
  | .ok _ => .ok (render options ran.editor.buffer, messages)

/-- Runs the program. The file is looked at only if the arguments are in order. -/
def run (arguments : List String) (read : String → Except FileError Text) : Report :=
  let started := logLine .info program "Starting tint"
  match parse arguments with
  | .error e => ⟨2, [], [started, e.message, usage]⟩
  | .ok options =>
    let opening := logLine .info program ("Opening file: " ++ options.path)
    let failed (reason : String) : String :=
      logLine .error program ("Failed to highlight '" ++ options.path ++ "': " ++ reason)
    match read options.path with
    | .error e => ⟨1, [], [started, opening, failed e.message]⟩
    | .ok text =>
      match highlight options text with
      | .error (reason, messages) => ⟨1, [], started :: opening :: messages ++ [failed reason]⟩
      | .ok (output, messages) =>
        ⟨0, output, started :: opening :: messages ++ [logLine .info program "tint exited"]⟩

end LiveHighlight.CommandLine
