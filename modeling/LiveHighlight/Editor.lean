import LiveHighlight.Event
import LiveHighlight.Registry
import LiveHighlight.Settings

/-! An editor: one open file with its buffer, its history, and a queue of highlighting tasks. Each
task carries the text right after its edit. -/

namespace LiveHighlight

inductive HighlightTask where
  | entire (text : Text)
  | region (text : Text) (edit : Edit)
  deriving DecidableEq, Repr

structure Editor where
  buffer : TextBuffer := {}
  history : History
  tabReplacement : Text
  path : String
  modified : Bool := false
  pending : List HighlightTask := []
  deriving DecidableEq

namespace Editor

/-- Queues a highlighting of the whole text. -/
def rehighlight (editor : Editor) : Editor :=
  { editor with pending := editor.pending ++ [.entire editor.buffer.text] }

/-- The name of a buffer that was never saved. -/
def untitledPath (number : Nat) : String := "untitled-" ++ toString number

/-- An empty editor. -/
def new (settings : Settings) (path : String) : Editor :=
  rehighlight
    { history := { History.ofLimit settings.historyLimit with coalescing := settings.coalesceEdits }
      tabReplacement := settings.tabReplacement
      path := path }

/-- Starts over with the text in the buffer: no history, no changes, one task. -/
def reset (editor : Editor) : Editor :=
  rehighlight { editor with history := editor.history.clear, pending := [], modified := false }

def loadText (editor : Editor) (text : Text) : Editor :=
  reset { editor with buffer := .ofText text }

/-- Shows the content of a file that was read. -/
def opened (editor : Editor) (path : String) (text : Text) : Editor × Event :=
  (reset { editor with buffer := .ofText text, path := path },
    .fileOpened path text.lineCount)

/-- Drops text, history, tasks and the file's highlighting state. -/
def close (editor : Editor) (registry : Registry) (key : FileKey) :
    Editor × Registry × List Event :=
  let (wasOpen, registry) := registry.close key
  ({ editor with
      history := editor.history.clear
      buffer := {}
      pending := []
      modified := false },
    registry, if wasOpen then [.fileClosed editor.path] else [])

/-- Takes note of a change of the buffer: records it and queues its highlighting. -/
def changed (editor : Editor) (change : BufferChange) : Editor :=
  { editor with
    history := (editor.history.record (.ofChange change)).2
    modified := true
    pending := editor.pending ++ [.region editor.buffer.text change.edit] }

/-- Carries on after an attempt to change the buffer. -/
def update (editor : Editor) :
    Except BufferError (BufferChange × TextBuffer) → Except BufferError Unit × Editor
  | .ok (change, buffer) => (.ok (), changed { editor with buffer := buffer } change)
  | .error e => (.error e, editor)

/-- Inserts typed text. -/
def insert (editor : Editor) (offset : Nat) (text : Text) : Except BufferError Unit × Editor :=
  let typed := expandTabs editor.tabReplacement text
  if typed = [] then (.ok (), editor) else editor.update (editor.buffer.insert offset typed)

def remove (editor : Editor) (offset length : Nat) : Except BufferError Unit × Editor :=
  if length = 0 then (.ok (), editor) else editor.update (editor.buffer.remove offset length)

def record (editor : Editor) (on : Bool) : Editor :=
  { editor with history := { editor.history with recording := on } }

/-- Applies an operation like any change, with recording off. -/
def replay (editor : Editor) (op : Operation) : Except BufferError Unit × Editor :=
  let attempt :=
    match op.kind with
    | .insert => editor.buffer.insert op.position op.text
    | .remove => editor.buffer.remove op.position op.text.length
  let (result, replayed) := (editor.record false).update attempt
  (result, replayed.record true)

/-- Replays an operation, if there is one, and then moves the history on. The answer tells whether
there was one. -/
def replayThen (editor : Editor) (op : Option Operation) (commit : History → History) :
    Except BufferError Bool × Editor :=
  match op with
  | none => (.ok false, editor)
  | some op =>
    match editor.replay op with
    | (.error e, editor) => (.error e, editor)
    | (.ok (), editor) => (.ok true, { editor with history := commit editor.history })

def undo (editor : Editor) : Except BufferError Bool × Editor :=
  editor.replayThen editor.history.undoOperation History.commitUndo

def redo (editor : Editor) : Except BufferError Bool × Editor :=
  editor.replayThen editor.history.redoOperation History.commitRedo

end Editor
end LiveHighlight
