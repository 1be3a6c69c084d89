import LiveHighlight.Editor.Drain

/-! A session: several editors that share a highlighter, the highlighting states of the open files,
and the files that can be read and written. -/

namespace LiveHighlight

inductive EditorError where
  | buffer (error : BufferError)
  | highlight (error : HighlightError)
  | file (error : FileError)
  deriving DecidableEq, Repr

/-- What can be asked of an editor of a session. -/
inductive Action where
  | loadText (text : Text)
  | insert (offset : Nat) (text : Text)
  | remove (offset length : Nat)
  | undo
  | redo
  | rehighlight
  | runPending
  | openFile (path : String)
  | save
  | saveAs (path : String)
  | close
  deriving DecidableEq, Repr

inductive Reply where
  | done
  | flag (value : Bool)
  | count (value : Nat)
  | failed (error : EditorError)
  deriving DecidableEq, Repr

def Reply.ofEdit : Except BufferError Unit → Reply
  | .ok () => .done
  | .error e => .failed (.buffer e)

def Reply.ofReplay : Except BufferError Bool → Reply
  | .ok moved => .flag moved
  | .error e => .failed (.buffer e)

def Reply.ofRun : Except HighlightError Nat → Reply
  | .ok ran => .count ran
  | .error e => .failed (.highlight e)

structure Session where
  highlighter : Highlighter LineLexer := .standard
  registry : Registry := {}
  files : Files := {}
  editors : List Editor := []

namespace Session

/-- Adds an empty editor. The first one is named with the number one. -/
def newEditor (session : Session) (settings : Settings) : Session :=
  let path := Editor.untitledPath (session.editors.length + 1)
  { session with editors := session.editors ++ [.new settings path] }

def setEditor (session : Session) (index : Nat) (editor : Editor) : Session :=
  { session with editors := session.editors.set index editor }

/-- Writes the text of an editor to a file, which becomes the editor's file. -/
def saveEditor (session : Session) (index : Nat) (editor : Editor) (path : String) :
    Reply × Session :=
  match session.files.write path (.text editor.buffer.text) with
  | .error e => (.failed (.file e), session)
  | .ok files =>
    (.done, { session with files := files }.setEditor index
      { editor with path := path, modified := false })

/-- Shows a file in an editor. -/
def openEditor (session : Session) (index : Nat) (editor : Editor) (path : String) :
    Reply × Session × List Event :=
  match session.files.read path with
  | .error e => (.failed (.file e), session, [])
  | .ok text =>
    let (editor, event) := editor.opened path text
    (.done, session.setEditor index editor, [event])

def closeEditor (session : Session) (index : Nat) (editor : Editor) :
    Reply × Session × List Event :=
  let (editor, registry, events) :=
    editor.close session.registry (session.files.key editor.path)
  (.done, { session with registry := registry }.setEditor index editor, events)

/-- Runs the tasks of an editor with a highlighter that need not be the session's own. The answer
has the highlighter as the run leaves it. -/
def runEditor {σ : Type} [Lexer σ] (session : Session) (index : Nat) (editor : Editor)
    (highlighter : Highlighter σ) : Reply × Session × Highlighter σ × List Event :=
  let ran := editor.runPending highlighter session.registry (session.files.key editor.path)
  (.ofRun ran.result, { session with registry := ran.registry }.setEditor index ran.editor,
    ran.highlighter, ran.events)

/-- Does what is asked of an editor. Nothing happens where there is no such editor. -/
def perform (session : Session) (index : Nat) (action : Action) :
    Reply × Session × List Event :=
  match session.editors[index]? with
  | none => (.done, session, [])
  | some editor =>
    match action with
    | .loadText text => (.done, session.setEditor index (editor.loadText text), [])
    | .insert offset text =>
      let (result, editor) := editor.insert offset text
      (.ofEdit result, session.setEditor index editor, [])
    | .remove offset length =>
      let (result, editor) := editor.remove offset length
      (.ofEdit result, session.setEditor index editor, [])
    | .undo =>
      let (result, editor) := editor.undo
      (.ofReplay result, session.setEditor index editor, [])
    | .redo =>
      let (result, editor) := editor.redo
      (.ofReplay result, session.setEditor index editor, [])
    | .rehighlight => (.done, session.setEditor index editor.rehighlight, [])
    | .runPending =>
      let (reply, session, highlighter, events) :=
        session.runEditor index editor session.highlighter
      (reply, { session with highlighter := highlighter }, events)
    | .openFile path => session.openEditor index editor path
    | .save =>
      let (reply, session) := session.saveEditor index editor editor.path
      (reply, session, [])
    | .saveAs path =>
      let (reply, session) := session.saveEditor index editor path
      (reply, session, [])
    | .close => session.closeEditor index editor

end Session
end LiveHighlight
