import Mathlib
import LiveHighlight.Session
import LiveHighlight.Proofs.Draining
import LiveHighlight.Proofs.RunFrame

/-! The steps of a session from the point of view of one of its editors. A request to the editor
changes its buffer and queues the task for it. A request to another editor changes nothing that
concerns the editor, as long as the two files have different keys. -/

namespace LiveHighlight

/-- What a request can do to the buffer and the queue of an editor. -/
inductive Editor.Advances (before after : Editor) : Prop
  | unchanged (hbuffer : after.buffer = before.buffer) (hpending : after.pending = before.pending)
  | region (edit : Edit) (hedit : TextBuffer.Follows edit before.buffer after.buffer)
    (hpending : after.pending = before.pending ++ [.region after.buffer.text edit])
  | entire (hbuffer : after.buffer = before.buffer)
    (hpending : after.pending = before.pending ++ [.entire before.buffer.text])
  | reset (hpending : after.pending = [.entire after.buffer.text])

theorem History.push_recording (history : History) (entry : HistoryEntry) :
    (history.push entry).recording = history.recording := by
  unfold push
  dsimp only
  split <;> rfl

theorem History.record_recording {history : History} (h : history.recording = true)
    (op : Operation) : (history.record op).2.recording = true := by
  rw [record, if_pos h]
  dsimp only
  split
  · exact h
  · exact (push_recording _ _).trans h

theorem History.commitUndo_recording (history : History) :
    history.commitUndo.recording = history.recording := by
  unfold commitUndo
  split <;> rfl

theorem History.commitRedo_recording (history : History) :
    history.commitRedo.recording = history.recording := by
  unfold commitRedo
  split <;> rfl

namespace Editor

/-- What inserting, removing, undoing and redoing do to an editor. If the buffer changes, the change
is queued and the text counts as modified. -/
inductive Edits (before : Editor) : Editor → Prop
  | refused {history : History}
    (hrecording : before.history.recording = true → history.recording = true) :
    Edits before { before with history := history }
  | changed {history : History} {buffer : TextBuffer} {edit : Edit}
    (hrecording : before.history.recording = true → history.recording = true)
    (hedit : TextBuffer.Follows edit before.buffer buffer) :
    Edits before { before with
      history := history
      buffer := buffer
      modified := true
      pending := before.pending ++ [.region buffer.text edit] }

section

variable {editor next : Editor}

theorem Edits.advances (h : editor.Edits next) : editor.Advances next := by
  cases h with
  | refused _ => exact .unchanged rfl rfl
  | changed _ hedit => exact .region _ hedit rfl

theorem Edits.path (h : editor.Edits next) : next.path = editor.path := by
  cases h with
  | refused _ => rfl
  | changed _ _ => rfl

theorem Edits.withHistory {past history : History} (h : Edits { editor with history := past } next)
    (hrecording : editor.history.recording = true → history.recording = true) :
    editor.Edits { next with history := history } := by
  cases h with
  | refused _ => exact .refused hrecording
  | changed _ hedit => exact .changed hrecording hedit

end

theorem update_edits (editor : Editor) {attempt : Except BufferError (BufferChange × TextBuffer)}
    (h : ∀ change buffer, attempt = .ok (change, buffer) →
      TextBuffer.Follows change.edit editor.buffer buffer) :
    editor.Edits (editor.update attempt).2 := by
  rcases attempt with e | ⟨change, buffer⟩
  · exact .refused id
  · exact .changed (fun hrecording => History.record_recording hrecording _)
      (h change buffer rfl)

theorem insert_edits (editor : Editor) (offset : Nat) (text : Text) :
    editor.Edits (editor.insert offset text).2 := by
  unfold insert
  dsimp only
  split_ifs
  · exact .refused id
  · exact update_edits editor fun change buffer h => (TextBuffer.insert_follows h).2.2

theorem remove_edits (editor : Editor) (offset length : Nat) :
    editor.Edits (editor.remove offset length).2 := by
  unfold remove
  split_ifs
  · exact .refused id
  · exact update_edits editor fun change buffer h => (TextBuffer.remove_follows h).2.2.2

/-- Replaying turns the recording off and then on again, also if the operation is refused. -/
theorem replay_edits (editor : Editor) (op : Operation) :
    editor.Edits (editor.replay op).2 ∧ (editor.replay op).2.history.recording = true := by
  unfold replay
  cases op.kind with
  | insert =>
    refine ⟨((editor.record false).update_edits ?_).withHistory fun _ => rfl, rfl⟩
    exact fun change buffer h => (TextBuffer.insert_follows h).2.2
  | remove =>
    refine ⟨((editor.record false).update_edits ?_).withHistory fun _ => rfl, rfl⟩
    exact fun change buffer h => (TextBuffer.remove_follows h).2.2.2

theorem replayThen_edits (editor : Editor) (op : Option Operation) {commit : History → History}
    (hcommit : ∀ history, (commit history).recording = history.recording) :
    editor.Edits (editor.replayThen op commit).2 := by
  unfold replayThen
  cases op with
  | none => exact .refused id
  | some op =>
    obtain ⟨hedits, hrecording⟩ := editor.replay_edits op
    dsimp only
    rcases hreplay : editor.replay op with ⟨_ | _, next⟩
    · rw [hreplay] at hedits
      exact hedits
    · rw [hreplay] at hedits hrecording
      exact hedits.withHistory fun _ => (hcommit next.history).trans hrecording

theorem undo_edits (editor : Editor) : editor.Edits editor.undo.2 :=
  editor.replayThen_edits editor.history.undoOperation History.commitUndo_recording

theorem redo_edits (editor : Editor) : editor.Edits editor.redo.2 :=
  editor.replayThen_edits editor.history.redoOperation History.commitRedo_recording

end Editor

/-- The requests that edit the text of an editor or highlight it. -/
def Action.edits : Action → Bool
  | .loadText _ | .insert _ _ | .remove _ _ | .undo | .redo | .rehighlight | .runPending => true
  | .openFile _ | .save | .saveAs _ | .close => false

/-- The requests that change the text in one place. -/
def Action.changes : Action → Bool
  | .insert _ _ | .remove _ _ | .undo | .redo => true
  | .loadText _ | .rehighlight | .runPending | .openFile _ | .save | .saveAs _ | .close => false

namespace Session

variable {session : Session} {index : Nat} {editor : Editor}

theorem editors_setEditor (session : Session) (index : Nat) (editor : Editor) (i : Nat) :
    (session.setEditor index editor).editors[i]? =
      if index = i then session.editors[i]?.map fun _ => editor else session.editors[i]? := by
  unfold setEditor
  rw [List.getElem?_set]
  split_ifs with h hlt
  · subst h
    rw [List.getElem?_eq_getElem hlt, Option.map_some]
  · subst h
    rw [List.getElem?_eq_none (Nat.not_lt.1 hlt), Option.map_none]
  · rfl

theorem editors_setEditor_self (heditor : session.editors[index]? = some editor) (next : Editor) :
    (session.setEditor index next).editors[index]? = some next := by
  rw [editors_setEditor, if_pos rfl, heditor, Option.map_some]

theorem eq_of_setEditor {shown next : Editor}
    (hnext : (session.setEditor index shown).editors[index]? = some next)
    (heditor : session.editors[index]? = some editor) : next = shown := by
  rw [editors_setEditor_self heditor] at hnext
  exact (Option.some.inj hnext).symm

/-- A request that edits a text depends on nothing but the editor, and changes nothing else. -/
theorem perform_own (editor : Editor) {action : Action} (hedits : action.edits = true)
    (hrun : action ≠ .runPending) :
    ∃ reply next, editor.Advances next ∧ next.path = editor.path ∧
      (action.changes = true → editor.Edits next) ∧
      ∀ (session : Session) (index : Nat), session.editors[index]? = some editor →
        session.perform index action = (reply, session.setEditor index next, []) := by
  cases action with
  | loadText text =>
    refine ⟨.done, editor.loadText text, .reset rfl, rfl, nofun, fun session index heditor => ?_⟩
    rw [perform, heditor]
  | insert offset text =>
    have hnext := editor.insert_edits offset text
    refine ⟨.ofEdit (editor.insert offset text).1, _, hnext.advances, hnext.path, fun _ => hnext,
      fun session index heditor => ?_⟩
    rw [perform, heditor]
  | remove offset length =>
    have hnext := editor.remove_edits offset length
    refine ⟨.ofEdit (editor.remove offset length).1, _, hnext.advances, hnext.path, fun _ => hnext,
      fun session index heditor => ?_⟩
    rw [perform, heditor]
  | undo =>
    have hnext := editor.undo_edits
    refine ⟨.ofReplay editor.undo.1, _, hnext.advances, hnext.path, fun _ => hnext,
      fun session index heditor => ?_⟩
    rw [perform, heditor]
  | redo =>
    have hnext := editor.redo_edits
    refine ⟨.ofReplay editor.redo.1, _, hnext.advances, hnext.path, fun _ => hnext,
      fun session index heditor => ?_⟩
    rw [perform, heditor]
  | rehighlight =>
    refine ⟨.done, editor.rehighlight, .entire rfl rfl, rfl, nofun,
      fun session index heditor => ?_⟩
    rw [perform, heditor]
  | runPending => exact absurd rfl hrun
  | openFile path => cases hedits
  | save => cases hedits
  | saveAs path => cases hedits
  | close => cases hedits

/-- The key of the file of an editor. -/
def key? (session : Session) (index : Nat) : Option FileKey :=
  session.editors[index]?.map fun editor => session.files.key editor.path

/-- The highlighting state of the file of an editor. -/
def state? (session : Session) (index : Nat) : Option FileState :=
  (session.key? index).bind session.registry.get?

theorem state?_eq (heditor : session.editors[index]? = some editor) :
    session.state? index = session.registry.get? (session.files.key editor.path) := by
  rw [state?, key?, heditor]
  rfl

theorem perform_runPending (heditor : session.editors[index]? = some editor)
    {ran : Editor.Ran LineLexer}
    (hrun : editor.runPending session.highlighter session.registry
      (session.files.key editor.path) = ran) (hpath : ran.editor.path = editor.path) :
    (session.perform index .runPending).1 = .ofRun ran.result ∧
      (session.perform index .runPending).2.1.editors[index]? = some ran.editor ∧
      (session.perform index .runPending).2.1.state? index =
        ran.registry.get? (session.files.key editor.path) := by
  let shared : Session :=
    { session with registry := ran.registry, highlighter := ran.highlighter }
  have hperform : session.perform index .runPending =
      (.ofRun ran.result, shared.setEditor index ran.editor, ran.events) := by
    unfold perform
    rw [heditor]
    dsimp only [runEditor]
    rw [hrun]
    rfl
  have hset := @editors_setEditor_self shared index editor heditor ran.editor
  rw [hperform]
  refine ⟨rfl, hset, ?_⟩
  rw [state?_eq hset, hpath]
  rfl

/-- All that is asked of a session leaves a highlighter that is like the one before. -/
theorem perform_highlighter (session : Session) (index : Nat) (action : Action) :
    (session.perform index action).2.1.highlighter.Alike session.highlighter := by
  unfold perform
  cases session.editors[index]? with
  | none => exact .refl _
  | some editor =>
    cases action with
    | runPending => exact editor.runPending_alike session.highlighter _ _
    | openFile path =>
      dsimp only [openEditor]
      split <;> exact .refl _
    | save =>
      dsimp only [saveEditor]
      split <;> exact .refl _
    | saveAs path =>
      dsimp only [saveEditor]
      split <;> exact .refl _
    | _ => exact .refl _

theorem perform_editors {i j : Nat} (hne : j ≠ i) (session : Session) (action : Action) :
    (session.perform j action).2.1.editors[i]? = session.editors[i]? := by
  have hset (session : Session) (editor : Editor) :
      (session.setEditor j editor).editors[i]? = session.editors[i]? := by
    rw [editors_setEditor, if_neg hne]
  unfold perform
  cases session.editors[j]? with
  | none => rfl
  | some editor =>
    cases action with
    | openFile path =>
      dsimp only [openEditor]
      split
      · rfl
      · exact hset _ _
    | save =>
      dsimp only [saveEditor]
      split
      · rfl
      · exact hset _ _
    | saveAs path =>
      dsimp only [saveEditor]
      split
      · rfl
      · exact hset _ _
    | _ => exact hset _ _

theorem perform_registry {j : Nat} {other : FileKey} (hne : session.key? j ≠ some other)
    (action : Action) :
    (session.perform j action).2.1.registry.get? other = session.registry.get? other := by
  unfold perform
  unfold key? at hne
  cases heditor : session.editors[j]? with
  | none => rfl
  | some editor =>
    rw [heditor, Option.map_some, ne_eq, Option.some.injEq] at hne
    have hother : other ≠ session.files.key editor.path := fun h => hne h.symm
    cases action with
    | runPending => exact Editor.runPending_registry hother editor session.highlighter _
    | close =>
      dsimp only [closeEditor, Editor.close, Registry.close, setEditor]
      rw [Registry.get?_erase, if_neg hother]
    | openFile path =>
      dsimp only [openEditor]
      split <;> rfl
    | save =>
      dsimp only [saveEditor]
      split <;> rfl
    | saveAs path =>
      dsimp only [saveEditor]
      split <;> rfl
    | _ => rfl

/-- A step of a session as seen from one editor: a request to the editor that leaves a text that
fits, or a request to an editor of another file. -/
inductive Step (index : Nat) (session : Session) : Session → Prop
  | own (action : Action) (hedits : action.edits = true)
    (hfits : ∀ editor, (session.perform index action).2.1.editors[index]? = some editor →
      editor.buffer.text.Fits) :
    Step index session (session.perform index action).2.1
  | other (j : Nat) (action : Action) (hkey : session.key? j ≠ session.key? index)
    (hsame : (session.perform j action).2.1.key? index = session.key? index) :
    Step index session (session.perform j action).2.1

theorem Step.highlighter {next : Session} (h : session.Step index next) :
    next.highlighter.Alike session.highlighter := by
  cases h with
  | own action hedits hfits => exact perform_highlighter session index action
  | other j action hkey hsame => exact perform_highlighter session j action

theorem perform_other {j : Nat} (hkey : session.key? j ≠ session.key? index) (action : Action)
    (hsame : (session.perform j action).2.1.key? index = session.key? index) :
    (session.perform j action).2.1.editors[index]? = session.editors[index]? ∧
      (session.perform j action).2.1.state? index = session.state? index := by
  have hne : j ≠ index := fun h => hkey (by rw [h])
  refine ⟨perform_editors hne session action, ?_⟩
  unfold state?
  rw [hsame]
  cases hindex : session.key? index with
  | none => rfl
  | some key => exact perform_registry (hindex ▸ hkey) action

theorem state?_setEditor (heditor : session.editors[index]? = some editor) {next : Editor}
    (hpath : next.path = editor.path) :
    (session.setEditor index next).state? index = session.state? index := by
  rw [state?_eq (editors_setEditor_self heditor next), state?_eq heditor, hpath]
  rfl

end Session

/-- A queue grows with the buffer, or starts anew with a task for the whole text. -/
theorem Queued.advance {base : TextBuffer} {before after : Editor}
    (h : Queued base before.pending before.buffer) (hadvances : before.Advances after)
    (hfits : after.buffer.text.Fits) :
    (∃ more, after.pending = before.pending ++ more ∧
      Queued base after.pending after.buffer) ∨
      after.pending = [.entire after.buffer.text] ∧
        Queued after.buffer after.pending after.buffer := by
  cases hadvances with
  | unchanged hbuffer hpending =>
    refine .inl ⟨[], by rw [hpending, List.append_nil], ?_⟩
    rw [hbuffer, hpending]
    exact h
  | region edit hedit hpending =>
    refine .inl ⟨_, hpending, ?_⟩
    rw [hpending]
    exact h.append (.region hedit hfits (.nil _))
  | entire hbuffer hpending =>
    refine .inl ⟨_, hpending, ?_⟩
    rw [hpending, hbuffer]
    exact h.append (.entire (.nil _))
  | reset hpending =>
    refine .inr ⟨hpending, ?_⟩
    rw [hpending]
    exact .entire (.nil _)

theorem Session.perform_advance {session : Session} {index : Nat} {editor : Editor}
    {base : TextBuffer} (heditor : session.editors[index]? = some editor)
    (hqueued : Queued base editor.pending editor.buffer) {action : Action}
    (hedits : action.edits = true) (hrun : action ≠ .runPending)
    (hfits : ∀ editor, (session.perform index action).2.1.editors[index]? = some editor →
      editor.buffer.text.Fits) :
    ∃ after, (session.perform index action).2.1.editors[index]? = some after ∧
      (session.perform index action).2.1.state? index = session.state? index ∧
      after.buffer.text.Fits ∧
      ((∃ more, after.pending = editor.pending ++ more ∧
        Queued base after.pending after.buffer) ∨
        after.pending = [.entire after.buffer.text] ∧
          Queued after.buffer after.pending after.buffer) := by
  obtain ⟨reply, after, hadvances, hpath, -, hperform⟩ := perform_own editor hedits hrun
  have hset := editors_setEditor_self heditor after
  rw [hperform session index heditor] at hfits ⊢
  exact ⟨after, hset, state?_setEditor heditor hpath, hfits after hset,
    hqueued.advance hadvances (hfits after hset)⟩

end LiveHighlight
