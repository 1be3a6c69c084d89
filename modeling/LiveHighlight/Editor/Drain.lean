import LiveHighlight.Editor
import LiveHighlight.Highlighter

/-! Running the queued tasks of an editor. Every task brings the regions in step with its own text;
the rows that any of them touched are painted once, from the text of the buffer. -/

namespace LiveHighlight.Editor

open Extent

variable {σ : Type}

/-- How far the queue has been run. -/
structure Drain (σ : Type) where
  reader : Reader σ
  registry : Registry
  /-- The rows to paint, in offsets of the last task's text. -/
  dirty : Option Span := none
  /-- The rows that wait in the state, if they are those of the last task. -/
  fresh : Option Span := none
  ran : Nat := 0
  events : List Event := []

namespace Drain

/-- Takes in the outcome of one task. -/
def absorb (drain : Drain σ) (key : FileKey) (outcome : Outcome σ Window) :
    Except HighlightError Unit × Drain σ :=
  let drain :=
    { drain with
      reader := outcome.reader
      registry := drain.registry.set key outcome.state
      events := drain.events ++ outcome.events }
  match outcome.result with
  | .error e => (.error e, drain)
  | .ok window =>
    let span : Span := ⟨window.start, window.stop⟩
    (.ok (), { drain with
      dirty := some (drain.dirty.elim span span.join)
      fresh := some span
      ran := drain.ran + 1 })

/-- Runs one task. A task for a region of a file without state is left out. -/
def step [Lexer σ] (drain : Drain σ) (path : String) (key : FileKey) :
    HighlightTask → Except HighlightError Unit × Drain σ
  | .entire text =>
    let (state, registry, created) := drain.registry.getOrCreate key path
    absorb { drain with registry := registry, dirty := none, events := drain.events ++ created } key
      (Relex.entire drain.reader text state)
  | .region text edit =>
    let drain : Drain σ :=
      { drain with dirty := drain.dirty.map fun span => span.mapForward edit, fresh := none }
    match drain.registry.get? key with
    | none => (.ok (), { drain with events := drain.events ++ [.stateMissing path] })
    | some state => absorb drain key (Relex.afterEdit drain.reader text edit state)

/-- Runs tasks up to the first one that fails. -/
def run [Lexer σ] (path : String) (key : FileKey) :
    List HighlightTask → Drain σ → Except HighlightError Unit × Drain σ
  | [], drain => (.ok (), drain)
  | task :: rest, drain =>
    match drain.step path key task with
    | (.error e, drain) => (.error e, drain)
    | (.ok (), drain) => run path key rest drain

end Drain

/-- What running the queue leaves behind. -/
structure Ran (σ : Type) where
  result : Except HighlightError Nat
  editor : Editor
  highlighter : Highlighter σ
  registry : Registry
  events : List Event

/-- Drops the file's state and queue after a failure, and queues one highlighting of the whole
text. -/
def discard (editor : Editor) (key : FileKey) (highlighter : Highlighter σ) (registry : Registry)
    (events : List Event) (e : HighlightError) : Ran σ :=
  { result := .error e
    editor := rehighlight { editor with pending := [] }
    highlighter := highlighter
    registry := registry.erase key
    events := events ++ [.highlightFailed editor.path e] }

/-- Paints what the tasks touched. The rows of the last task can be painted as they are if no other
task touched more. -/
def paintDirty [Lexer σ] (editor : Editor) (highlighter : Highlighter σ) (state : FileState)
    (dirty : Span) (fresh : Option Span) : Painted σ :=
  let text := editor.buffer.text
  if fresh = some dirty then
    let (buffer, state, missed) := highlighter.apply text state editor.buffer
    ⟨.ok none, state, buffer, highlighter, missed⟩
  else highlighter.repaint text dirty.start dirty.stop state editor.buffer

/-- Ends a run whose tasks all went well by painting what they touched. -/
def finishRun [Lexer σ] (editor : Editor) (highlighter : Highlighter σ) (key : FileKey)
    (drain : Drain σ) : Ran σ :=
  let idle := { editor with pending := [] }
  match drain.dirty, drain.registry.get? key with
  | some dirty, some state =>
    let painted := idle.paintDirty highlighter state dirty drain.fresh
    let events := drain.events ++ painted.events
    match painted.result with
    | .error e =>
      { idle with buffer := painted.buffer }.discard key painted.highlighter drain.registry events e
    | .ok _ =>
      ⟨.ok drain.ran, { idle with buffer := painted.buffer }, painted.highlighter,
        drain.registry.set key painted.state, events⟩
  | _, _ => ⟨.ok drain.ran, idle, highlighter, drain.registry, drain.events⟩

/-- Runs all queued tasks and tells how many ran. While highlighting is off they are dropped. -/
def runPending [Lexer σ] (editor : Editor) (highlighter : Highlighter σ) (registry : Registry)
    (key : FileKey) : Ran σ :=
  if highlighter.enabled then
    let (result, drain) := Drain.run editor.path key editor.pending
      { reader := highlighter.toReader, registry := registry }
    let highlighter := { highlighter with toReader := drain.reader }
    match result with
    | .error e => editor.discard key highlighter drain.registry drain.events e
    | .ok () => editor.finishRun highlighter key drain
  else
    ⟨.ok editor.pending.length, { editor with pending := [] }, highlighter, registry, []⟩

end LiveHighlight.Editor
