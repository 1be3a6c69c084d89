import Mathlib
import LiveHighlight.Proofs.SessionSteps
import LiveHighlight.Proofs.UndoChain

/-! Failures. What cannot be lexed is not painted, so a run that fails, whatever the lexer, leaves
the buffer alone, and an editor with one task for its whole text and no state for its file. A queue
that starts this way can be run in full by the row lexer, however many edits come after its first
task. -/

namespace LiveHighlight

namespace Highlighter

variable {σ : Type} {highlighter : Highlighter σ} {text : Text} {buffer : TextBuffer}
  {state : FileState} {e : HighlightError}

theorem finish_failed {lexed : Outcome σ Window}
    (h : (highlighter.finish text buffer lexed).result = .error e) :
    (highlighter.finish text buffer lexed).buffer = buffer := by
  unfold finish at h ⊢
  split at h
  · rfl
  · cases h

/-- Painting a range again paints nothing if its rows cannot be lexed. -/
theorem repaint_failed [Lexer σ] {start stop : Nat}
    (h : (highlighter.repaint text start stop state buffer).result = .error e) :
    (highlighter.repaint text start stop state buffer).buffer = buffer := by
  unfold repaint whenEnabled at h ⊢
  split_ifs at h ⊢
  exact finish_failed h

end Highlighter

namespace Editor

section

variable {σ : Type} [Lexer σ] {editor : Editor} {highlighter : Highlighter σ} {key : FileKey}
  {e : HighlightError}

theorem paintDirty_failed {state : FileState} {dirty : Extent.Span} {fresh : Option Extent.Span}
    (h : (editor.paintDirty highlighter state dirty fresh).result = .error e) :
    (editor.paintDirty highlighter state dirty fresh).buffer = editor.buffer := by
  unfold paintDirty at h ⊢
  dsimp only at h ⊢
  split_ifs at h ⊢
  exact Highlighter.repaint_failed h

theorem finishRun_failed {drain : Drain σ}
    (h : (editor.finishRun highlighter key drain).result = .error e) :
    ∃ after registry events,
      editor.finishRun highlighter key drain = editor.discard key after registry events e := by
  unfold finishRun at h ⊢
  dsimp only at h ⊢
  split at h
  · split at h
    · next hpaint =>
      obtain rfl := Except.error.inj h
      rw [paintDirty_failed hpaint]
      exact ⟨_, _, _, rfl⟩
    · cases h
  · cases h

/-- A run that fails, in one of its tasks or while it paints, ends by dropping what it did. -/
theorem runPending_failed {registry : Registry}
    (h : (editor.runPending highlighter registry key).result = .error e) :
    ∃ after registry' events,
      editor.runPending highlighter registry key =
        editor.discard key after registry' events e := by
  unfold runPending at h ⊢
  split_ifs at h ⊢
  rcases hrun : Drain.run editor.path key editor.pending
    { reader := highlighter.toReader, registry := registry } with ⟨e' | _, drain⟩
  · rw [hrun] at h
    obtain rfl := Except.error.inj h
    exact ⟨_, _, _, rfl⟩
  · rw [hrun] at h
    exact finishRun_failed h

end

theorem answer_advances (editor : Editor) (request : Request) :
    Advances editor (editor.answer request) := by
  cases request with
  | insert offset text => exact (editor.insert_edits offset text).advances
  | remove offset length => exact (editor.remove_edits offset length).advances
  | undo => exact editor.undo_edits.advances
  | redo => exact editor.redo_edits.advances

/-- The queue leads to the text of the buffer and starts with a task for a whole text. -/
def StartsWhole (editor : Editor) : Prop :=
  ∃ (base : TextBuffer) (rest : List HighlightTask), base.text.Fits ∧
    Queued base editor.pending editor.buffer ∧ editor.pending = .entire base.text :: rest

section

variable {editor : Editor}

theorem StartsWhole.answer (h : editor.StartsWhole) (request : Request)
    (hfits : (editor.answer request).buffer.text.Fits) : (editor.answer request).StartsWhole := by
  obtain ⟨base, rest, hbase, hqueued, hfirst⟩ := h
  rcases hqueued.advance (editor.answer_advances request) hfits with
    ⟨more, hpending, hqueued'⟩ | ⟨hpending, hqueued'⟩
  · refine ⟨base, rest ++ more, hbase, hqueued', ?_⟩
    rw [hpending, hfirst, List.cons_append]
  · exact ⟨_, [], hfits, hqueued', hpending⟩

/-- Requests only add to the queue, as long as every text on the way fits. -/
theorem StartsWhole.answers (h : editor.StartsWhole) (requests : List Request)
    (hfits : ∀ part, part <+: requests → (editor.answers part).buffer.text.Fits) :
    (editor.answers requests).StartsWhole := by
  induction requests generalizing editor with
  | nil => exact h
  | cons request rest ih =>
    apply ih
    · exact h.answer request (hfits [request] (List.prefix_append [request] rest))
    · intro part hpart
      exact hfits (request :: part) (List.cons_prefix_cons.2 ⟨rfl, hpart⟩)

theorem StartsWhole.runPending (h : editor.StartsWhole) {highlighter : Highlighter LineLexer}
    (hon : highlighter.enabled = true) (registry : Registry) (key : FileKey) :
    let ran := editor.runPending highlighter registry key
    let whole := highlighter.highlightEntire editor.buffer.text {} (.ofText editor.buffer.text)
    ran.result = .ok editor.pending.length ∧ ran.editor.pending = [] ∧
      ran.editor.buffer.text = editor.buffer.text ∧
      ran.editor.buffer.styles = whole.buffer.styles ∧
      ∃ state, ran.registry.get? key = some state ∧ state.regions = whole.state.regions := by
  intro ran whole
  obtain ⟨base, rest, hbase, hqueued, hfirst⟩ := h
  have hready : Highlighted highlighter.rules base (registry.get? key) ∨
      ∃ text rest, editor.pending = .entire text :: rest := .inr ⟨_, _, hfirst⟩
  obtain ⟨buffer, last, registry', events, hrun, htext, hall⟩ :=
    runPending_highlighted hon hqueued hbase hready
  obtain ⟨state, hstate, -, hstyles, hregions⟩ := hall.eq_entire hon
  rw [htext] at hstyles hregions
  have hran : ran = _ := hrun
  rw [hran]
  exact ⟨rfl, rfl, htext, hstyles, state, hstate, hregions⟩

end

/-- A failed run keeps the text and is made up for by the next one. Whatever the lexer, all that a
run with an error changes of the editor is its queue, which holds one task for the whole text; the
file has no state any more, and other files keep theirs. After any requests, a run with the row
lexer goes well and leaves the styles and regions of highlighting the whole text. -/
theorem runPending_recovers {σ : Type} [Lexer σ] {editor : Editor} {highlighter : Highlighter σ}
    {registry : Registry} {key : FileKey} {e : HighlightError}
    (hfailed : (editor.runPending highlighter registry key).result = .error e) :
    let failed := editor.runPending highlighter registry key
    failed.editor = { editor with pending := [.entire editor.buffer.text] } ∧
      failed.registry.get? key = none ∧
      (∀ other, other ≠ key → failed.registry.get? other = registry.get? other) ∧
      ∀ (requests : List Request) (next : Highlighter LineLexer), next.enabled = true →
        (∀ part, part <+: requests → (failed.editor.answers part).buffer.text.Fits) →
        let edited := failed.editor.answers requests
        let ran := edited.runPending next failed.registry key
        let whole := next.highlightEntire edited.buffer.text {} (.ofText edited.buffer.text)
        ran.result = .ok edited.pending.length ∧ ran.editor.pending = [] ∧
          ran.editor.buffer.text = edited.buffer.text ∧
          ran.editor.buffer.styles = whole.buffer.styles ∧
          ∃ state, ran.registry.get? key = some state ∧
            state.regions = whole.state.regions := by
  intro failed
  obtain ⟨after, registry', events, hdiscard⟩ := runPending_failed hfailed
  have heditor : failed.editor = { editor with pending := [.entire editor.buffer.text] } := by
    show (editor.runPending highlighter registry key).editor = _
    rw [hdiscard]
    rfl
  refine ⟨heditor, ?_, ?_, ?_⟩
  · show (editor.runPending highlighter registry key).registry.get? key = none
    rw [hdiscard, discard, Registry.get?_erase, if_pos rfl]
  · intro other hne
    exact runPending_registry hne editor highlighter registry
  · intro requests next hon hfits
    have hstart : failed.editor.StartsWhole := by
      have hnow := hfits [] List.nil_prefix
      refine ⟨failed.editor.buffer, [], hnow, ?_, ?_⟩
      · rw [heditor]
        exact .entire (.nil _)
      · rw [heditor]
    exact (hstart.answers requests hfits).runPending hon failed.registry key

/-- A lexer that closes a comment in every text, whether one is open or not. -/
def strayCloser : Script :=
  ⟨[⟨[[⟨.fragment .comment .closing, [':', '~'], ⟨0, 0⟩⟩]], []⟩], false⟩

/-- A stray fragment makes the first run of a new editor fail. With a comment opened and closed
since then, the next run takes three tasks. -/
theorem runPending_recovers_stray :
    let failed := (Editor.new {} "a").runPending
      { lexer := strayCloser, rules := .standard } {} (.spelled false false ["a"])
    let edited := failed.editor.answers [.insert 0 ['~', ':', '\n'], .insert 3 [':', '~']]
    failed.result = .error (.unexpectedFragment .comment .closing ⟨0, 0⟩) ∧
      (edited.runPending .standard failed.registry
        (.spelled false false ["a"])).result = .ok 3 := by
  intro failed edited
  have hfailed : failed.result = .error (.unexpectedFragment .comment .closing ⟨0, 0⟩) := rfl
  refine ⟨hfailed, ?_⟩
  obtain ⟨-, -, -, hrecovers⟩ := runPending_recovers hfailed
  have hfits : ∀ part, part <+: [.insert 0 ['~', ':', '\n'], .insert 3 [':', '~']] →
      (failed.editor.answers part).buffer.text.Fits := by
    intro part hpart
    simp only [List.prefix_cons_iff, List.prefix_nil] at hpart
    rcases hpart with rfl | ⟨_, rfl, rfl | ⟨_, rfl, rfl⟩⟩
    · decide
    · decide
    · decide
  exact (hrecovers _ .standard rfl hfits).1

end Editor
end LiveHighlight
