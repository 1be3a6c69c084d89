import LiveHighlight.CommandLine

/-! The program: reads the file it is asked for and prints the report. -/

namespace LiveHighlight.Main

def fileError : IO.Error → FileError
  | .inappropriateType _ 21 _ => .isDirectory
  | .inappropriateType .. => .notDirectory
  | .invalidArgument .. => .nameTooLong
  | .permissionDenied .. => .permissionDenied
  | _ => .notFound

def readText (path : String) : IO (Except FileError Text) := do
  if let some e := Files.refusal [] path then return .error e
  try
    let bytes ← IO.FS.readBinFile path
    return (Content.ofBytes bytes.toList).read
  catch e => return .error (fileError e)

/-- The content of the file that the arguments name, if they name one. -/
def readNamed (arguments : List String) : IO (Except FileError Text) :=
  match CommandLine.parse arguments with
  | .ok options => readText options.path
  | .error _ => return .error .notFound

end LiveHighlight.Main

open LiveHighlight in
def main (arguments : List String) : IO UInt32 := do
  let content ← Main.readNamed arguments
  let report := CommandLine.run arguments fun _ => content
  for message in report.messages do
    IO.eprintln message
  IO.print (String.ofList report.output)
  return report.exitCode.toUInt32
