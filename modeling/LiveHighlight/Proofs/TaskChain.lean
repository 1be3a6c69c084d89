import Mathlib
import LiveHighlight.Proofs.SessionSteps

/-! The queue of an editor as a chain of texts. Every task continues the text of the task before it,
the first one continues the text with which the queue was last empty, and the last one has the text
of the buffer. Whatever is asked of an editor keeps the chain, also what fails. An editor without
changes shows the text that it was last given or that was last saved. -/

namespace LiveHighlight

namespace HighlightTask

/-- The text right after the edit of a task. -/
def text : HighlightTask → Text
  | .entire text => text
  | .region text _ => text

/-- A task goes on from a text: it takes the whole of it, or it is for an edit of it. -/
def Continues (before : Text) : HighlightTask → Prop
  | .entire text => text = before
  | .region text edit => edit.Applies before text

end HighlightTask

/-- The text that a task goes on from: that of the task before it, or for the first task the text
with which the queue was last empty. -/
def textBefore (idle : Option Text) (tasks : List HighlightTask) : Nat → Option Text
  | 0 => idle
  | i + 1 => tasks[i]?.map (·.text)

/-- Tasks that lead from the text with which the queue was last empty to a text. A task for the
whole text can come first in any case. -/
inductive Chain (idle : Option Text) : List HighlightTask → Text → Prop
  | nil {text : Text} (h : idle = some text) : Chain idle [] text
  | whole (text : Text) : Chain idle [.entire text] text
  | next {tasks : List HighlightTask} {before : Text} {task : HighlightTask}
    (h : Chain idle tasks before) (htask : task.Continues before) :
    Chain idle (tasks ++ [task]) task.text

namespace Chain

variable {idle : Option Text} {tasks : List HighlightTask} {text : Text} {task : HighlightTask}

theorem last (h : Chain idle tasks text) (hlast : tasks.getLast? = some task) :
    task.text = text := by
  cases h with
  | nil h => cases hlast
  | whole text =>
    obtain rfl := Option.some.inj hlast
    rfl
  | next h htask =>
    rw [List.getLast?_concat] at hlast
    obtain rfl := Option.some.inj hlast
    rfl

/-- The text that one more task would go on from. -/
theorem textBefore_length (h : Chain idle tasks text) :
    textBefore idle tasks tasks.length = some text := by
  cases h with
  | nil h => exact h
  | whole text => rfl
  | next h htask =>
    rw [List.length_append, List.length_singleton, textBefore, List.getElem?_concat_length,
      Option.map_some]

theorem textBefore_append {i : Nat} (hi : i ≤ tasks.length) :
    textBefore idle (tasks ++ [task]) i = textBefore idle tasks i := by
  cases i with
  | zero => rfl
  | succ i => rw [textBefore, textBefore, List.getElem?_append_left hi]

theorem continues (h : Chain idle tasks text) {i : Nat} (hi : tasks[i]? = some task) :
    (∃ before, textBefore idle tasks i = some before ∧ task.Continues before) ∨
      i = 0 ∧ ∃ whole, task = .entire whole := by
  induction h with
  | nil h => cases hi
  | whole text =>
    rw [List.getElem?_singleton] at hi
    split_ifs at hi with hzero
    exact .inr ⟨hzero, text, (Option.some.inj hi).symm⟩
  | @next tasks before last h htask ih =>
    rcases Nat.lt_or_ge i tasks.length with hlt | hge
    · rw [List.getElem?_append_left hlt] at hi
      rw [textBefore_append hlt.le]
      exact ih hi
    · have hlt : i < (tasks ++ [last]).length := (List.getElem?_eq_some_iff.1 hi).1
      rw [List.length_append, List.length_singleton] at hlt
      obtain rfl : i = tasks.length := by omega
      rw [List.getElem?_concat_length] at hi
      obtain rfl := Option.some.inj hi
      rw [textBefore_append le_rfl]
      exact .inl ⟨before, h.textBefore_length, htask⟩

/-- What a request does to the queue keeps the chain. -/
theorem advance {before after : Editor} (h : Chain idle before.pending before.buffer.text)
    (hadvances : before.Advances after) : Chain idle after.pending after.buffer.text := by
  cases hadvances with
  | unchanged hbuffer hpending =>
    rw [hbuffer, hpending]
    exact h
  | region edit hedit hpending =>
    have htask : (HighlightTask.region after.buffer.text edit).Continues before.buffer.text :=
      hedit.applies
    rw [hpending]
    exact h.next htask
  | entire hbuffer hpending =>
    have htask : (HighlightTask.entire before.buffer.text).Continues before.buffer.text := rfl
    rw [hbuffer, hpending]
    exact h.next htask
  | reset hpending =>
    rw [hpending]
    exact .whole _

end Chain

namespace Editor

variable {editor next : Editor} {idle : Option Text} {kept : Text}

/-- The text with which the queue was last empty, once an editor has come to be as it is. -/
def idleAfter (idle : Option Text) (editor : Editor) : Option Text :=
  if editor.pending = [] then some editor.buffer.text else idle

/-- What holds of an editor whose queue was last empty with one text, and that was last given or
last saved with another. -/
structure Faithful (idle : Option Text) (kept : Text) (editor : Editor) : Prop where
  chain : Chain idle editor.pending editor.buffer.text
  recording : editor.history.recording = true
  unmodified : editor.modified = false → editor.buffer.text = kept

theorem chain_idleAfter
    (h : editor.pending = [] ∨ Chain idle editor.pending editor.buffer.text) :
    Chain (idleAfter idle editor) editor.pending editor.buffer.text := by
  unfold idleAfter
  split_ifs with hempty
  · rw [hempty]
    exact .nil rfl
  · exact h.resolve_left hempty

theorem faithful_new (settings : Settings) (path : String) :
    (Editor.new settings path).Faithful none [] :=
  ⟨.whole [], rfl, fun _ => rfl⟩

theorem Faithful.edit (h : editor.Faithful idle kept) (hedits : editor.Edits next) :
    next.Faithful (idleAfter idle next) kept := by
  refine ⟨chain_idleAfter (.inr (h.chain.advance hedits.advances)), ?_, fun hmodified => ?_⟩
  · cases hedits with
    | refused hrecording => exact hrecording h.recording
    | changed hrecording _ => exact hrecording h.recording
  · cases hedits with
    | refused _ => exact h.unmodified hmodified
    | changed _ _ => cases hmodified

theorem Faithful.rehighlight (h : editor.Faithful idle kept) :
    editor.rehighlight.Faithful (idleAfter idle editor.rehighlight) kept := by
  have hadvances : editor.Advances editor.rehighlight := .entire rfl rfl
  exact ⟨chain_idleAfter (.inr (h.chain.advance hadvances)), h.recording, h.unmodified⟩

/-- Starting over with a text. -/
theorem Faithful.reset (h : editor.Faithful idle kept) (buffer : TextBuffer) (path : String) :
    ({ editor with buffer := buffer, path := path } : Editor).reset.Faithful
      (idleAfter idle ({ editor with buffer := buffer, path := path } : Editor).reset)
      buffer.text :=
  ⟨chain_idleAfter (.inr (.whole _)), h.recording, fun _ => rfl⟩

theorem Faithful.close (h : editor.Faithful idle kept) (registry : Registry) (key : FileKey) :
    (editor.close registry key).1.Faithful (idleAfter idle (editor.close registry key).1) [] :=
  ⟨chain_idleAfter (.inl rfl), h.recording, fun _ => rfl⟩

/-- A run empties the queue or queues the whole text, whatever the lexer. -/
theorem Faithful.run {σ : Type} [Lexer σ] (h : editor.Faithful idle kept)
    (highlighter : Highlighter σ) (registry : Registry) (key : FileKey) :
    let ran := (editor.runPending highlighter registry key).editor
    ran.Faithful (idleAfter idle ran) kept := by
  intro ran
  obtain ⟨tasks, buffer, hran, htext, htasks⟩ := editor.runPending_editor highlighter registry key
  change ran = _ at hran
  refine ⟨chain_idleAfter ?_, ?_, fun hmodified => ?_⟩
  · rw [hran]
    dsimp only
    refine htasks.imp_right fun hwhole => ?_
    rw [hwhole, htext]
    exact .whole _
  · rw [hran]
    exact h.recording
  · rw [hran] at hmodified ⊢
    exact htext.trans (h.unmodified hmodified)

end Editor

namespace Session

variable {session : Session} {index : Nat} {editor next : Editor} {idle : Option Text}
  {kept : Text}

/-- The text that an editor was last given or last saved with, once it was asked something. -/
def keptAfter (session : Session) (index : Nat) (editor : Editor) (kept : Text) : Action → Text
  | .loadText text => text
  | .openFile path => (session.files.read path).toOption.getD kept
  | .save => if (session.perform index .save).1 = .done then editor.buffer.text else kept
  | .saveAs path =>
    if (session.perform index (.saveAs path)).1 = .done then editor.buffer.text else kept
  | .close => []
  | .insert _ _ | .remove _ _ | .undo | .redo | .rehighlight | .runPending => kept

theorem saveEditor_faithful (h : editor.Faithful idle kept)
    (heditor : session.editors[index]? = some editor) (path : String)
    (hnext : (session.saveEditor index editor path).2.editors[index]? = some next) :
    next.Faithful (Editor.idleAfter idle next)
      (if (session.saveEditor index editor path).1 = .done then editor.buffer.text else kept) := by
  unfold saveEditor at hnext ⊢
  split at hnext
  · rw [heditor] at hnext
    obtain rfl := Option.some.inj hnext
    exact ⟨Editor.chain_idleAfter (.inr h.chain), h.recording, h.unmodified⟩
  · obtain rfl := eq_of_setEditor hnext heditor
    exact ⟨Editor.chain_idleAfter (.inr h.chain), h.recording, fun _ => rfl⟩

theorem openEditor_faithful (h : editor.Faithful idle kept)
    (heditor : session.editors[index]? = some editor) (path : String)
    (hnext : (session.openEditor index editor path).2.1.editors[index]? = some next) :
    next.Faithful (Editor.idleAfter idle next)
      ((session.files.read path).toOption.getD kept) := by
  unfold openEditor at hnext
  cases hread : session.files.read path with
  | error e =>
    rw [hread] at hnext
    obtain rfl := Option.some.inj (heditor.symm.trans hnext)
    exact ⟨Editor.chain_idleAfter (.inr h.chain), h.recording, h.unmodified⟩
  | ok text =>
    rw [hread] at hnext
    obtain rfl := eq_of_setEditor hnext heditor
    exact h.reset (.ofText text) path

/-- Whatever is asked of an editor keeps the chain, also what fails. -/
theorem perform_faithful (h : editor.Faithful idle kept)
    (heditor : session.editors[index]? = some editor) {action : Action}
    (hnext : (session.perform index action).2.1.editors[index]? = some next) :
    next.Faithful (Editor.idleAfter idle next) (session.keptAfter index editor kept action) := by
  rw [perform, heditor] at hnext
  cases action with
  | loadText text =>
    obtain rfl := eq_of_setEditor hnext heditor
    exact h.reset (.ofText text) editor.path
  | insert offset text =>
    obtain rfl := eq_of_setEditor hnext heditor
    exact h.edit (editor.insert_edits offset text)
  | remove offset length =>
    obtain rfl := eq_of_setEditor hnext heditor
    exact h.edit (editor.remove_edits offset length)
  | undo =>
    obtain rfl := eq_of_setEditor hnext heditor
    exact h.edit editor.undo_edits
  | redo =>
    obtain rfl := eq_of_setEditor hnext heditor
    exact h.edit editor.redo_edits
  | rehighlight =>
    obtain rfl := eq_of_setEditor hnext heditor
    exact h.rehighlight
  | runPending =>
    obtain rfl := eq_of_setEditor hnext heditor
    exact h.run session.highlighter session.registry _
  | openFile path => exact openEditor_faithful h heditor path hnext
  | save =>
    have hsave := saveEditor_faithful h heditor editor.path hnext
    rw [keptAfter, perform, heditor]
    exact hsave
  | saveAs path =>
    have hsave := saveEditor_faithful h heditor path hnext
    rw [keptAfter, perform, heditor]
    exact hsave
  | close =>
    obtain rfl := eq_of_setEditor hnext heditor
    exact h.close session.registry (session.files.key editor.path)

end Session

/-- The editors that requests lead to from an empty one, with the text with which the queue was last
empty and the text that was last given or last saved. A request can be made in any session that has
the editor, and the queue can be run with any lexer. -/
inductive Editor.Reached (settings : Settings) (path : String) : Editor → Option Text → Text → Prop
  | new : Reached settings path (.new settings path) none []
  | ask {editor next : Editor} {idle : Option Text} {kept : Text} {session : Session} {index : Nat}
    (h : Reached settings path editor idle kept) (action : Action)
    (heditor : session.editors[index]? = some editor)
    (hnext : (session.perform index action).2.1.editors[index]? = some next) :
    Reached settings path next (idleAfter idle next) (session.keptAfter index editor kept action)
  | run {editor : Editor} {idle : Option Text} {kept : Text} {σ : Type} [Lexer σ]
    (h : Reached settings path editor idle kept) (highlighter : Highlighter σ)
    (registry : Registry) (key : FileKey) :
    Reached settings path (editor.runPending highlighter registry key).editor
      (idleAfter idle (editor.runPending highlighter registry key).editor) kept

namespace Editor

variable {settings : Settings} {path : String} {editor : Editor} {idle : Option Text} {kept : Text}

theorem Reached.faithful (h : Reached settings path editor idle kept) :
    editor.Faithful idle kept := by
  induction h with
  | new => exact faithful_new settings path
  | ask _ action heditor hnext ih => exact Session.perform_faithful ih heditor hnext
  | run _ highlighter registry key ih => exact ih.run highlighter registry key

/-- The queue is a faithful chain of texts. Whatever was asked of an editor, the last task has the
text of the buffer, each task for an edit has the text that the edit makes of the text before it,
and each task for the whole text but the first has the text before it. The history is recording,
and without changes the text is the one that was last given or last saved. -/
theorem pending_is_chain (h : Reached settings path editor idle kept) :
    (∀ task, editor.pending.getLast? = some task → task.text = editor.buffer.text) ∧
      (∀ i text edit, editor.pending[i]? = some (.region text edit) →
        ∃ before, textBefore idle editor.pending i = some before ∧ edit.Applies before text) ∧
      (∀ i text, editor.pending[i + 1]? = some (.entire text) →
        ∃ task, editor.pending[i]? = some task ∧ task.text = text) ∧
      editor.history.recording = true ∧
      (editor.modified = false → editor.buffer.text = kept) := by
  have hfaithful := h.faithful
  have hchain := hfaithful.chain
  refine ⟨fun task hlast => hchain.last hlast, fun i text edit hi => ?_, fun i text hi => ?_,
    hfaithful.recording, hfaithful.unmodified⟩
  · obtain hbefore | ⟨-, whole, hwhole⟩ := hchain.continues hi
    · exact hbefore
    · cases hwhole
  · obtain ⟨before, hbefore, htext⟩ | ⟨hzero, -⟩ := hchain.continues hi
    · obtain ⟨task, htask, rfl⟩ := Option.map_eq_some_iff.1 hbefore
      exact ⟨task, htask, htext.symm⟩
    · cases hzero

/-- One letter typed after a run. The queue was last empty with no text. -/
theorem pending_is_chain_typed :
    let ran := ((Editor.new {} "a").runPending .standard {} (.spelled false false ["a"])).editor
    let typed := (ran.insert 0 ['a']).2
    typed.pending = [.region ['a'] ⟨0, 1, .insert⟩] ∧
      ∃ before, textBefore (some []) typed.pending 0 = some before ∧
        Edit.Applies ⟨0, 1, .insert⟩ before ['a'] := by
  intro ran typed
  have hran : Reached {} "a" ran (idleAfter none ran) [] :=
    .run .new .standard {} (.spelled false false ["a"])
  have hidle : idleAfter (idleAfter none ran) typed = some [] := by decide +kernel
  have htyped : typed.pending = [.region ['a'] ⟨0, 1, .insert⟩] := by decide +kernel
  have hsession : ({ editors := [ran] } : Session).editors[0]? = some ran := rfl
  have hreached : Reached {} "a" typed (idleAfter (idleAfter none ran) typed) [] :=
    .ask hran (.insert 0 ['a']) hsession rfl
  obtain ⟨-, hregion, -⟩ := pending_is_chain hreached
  rw [hidle] at hregion
  exact ⟨htyped, hregion 0 ['a'] ⟨0, 1, .insert⟩ (by rw [htyped]; rfl)⟩

end Editor
end LiveHighlight
