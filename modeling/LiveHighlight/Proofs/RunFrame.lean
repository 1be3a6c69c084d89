import Mathlib
import LiveHighlight.Editor.Drain
import LiveHighlight.Proofs.Painting

/-! What running a queue reads and changes, whatever the lexer. A run changes the styles and the
queue of its editor, the state of its own file, and what lexer and parser keep from one text to the
next. Both are reset before each text, so what the parser has counted shows in no result: runs that
differ only in that, and in the states of other files, are alike. -/

namespace LiveHighlight

open Extent

section

variable {σ : Type} [Lexer σ] {a b : Reader σ}

/-- What is read does not depend on what the parser has counted. -/
theorem Reader.read_congr (h : a.lexer = b.lexer) (text : Text) (row : Nat) :
    a.read text row = b.read text row := by
  unfold read
  rw [h]
  rfl

namespace Relex

theorem lexRows_congr (h : a.lexer = b.lexer) (text : Text) (span : Span) (startRow endRow : Nat) :
    lexRows a text span startRow endRow = lexRows b text span startRow endRow := by
  unfold lexRows
  rw [Reader.read_congr h]

theorem entire_congr (h : a.lexer = b.lexer) (text : Text) (state : FileState) :
    entire a text state = entire b text state := by
  unfold entire
  dsimp only
  rw [lexRows_congr h]

theorem afterEdit_congr (h : a.lexer = b.lexer) (text : Text) (edit : Edit) (state : FileState) :
    afterEdit a text edit state = afterEdit b text edit state := by
  unfold afterEdit
  dsimp only
  rw [lexRows_congr h]

theorem range_congr (h : a.lexer = b.lexer) (text : Text) (start stop : Nat) (state : FileState) :
    range a text start stop state = range b text start stop state := by
  unfold range
  dsimp only
  rw [lexRows_congr h]

end Relex

end

/-- Highlighters that differ at most in what their parsers have counted. -/
structure Highlighter.Alike {σ : Type} (a b : Highlighter σ) : Prop where
  lexer : a.lexer = b.lexer
  rules : a.rules = b.rules
  enabled : a.enabled = b.enabled

/-- What painting leaves, up to what the parsers have counted. -/
structure Painted.Alike {σ : Type} (a b : Painted σ) : Prop where
  result : a.result = b.result
  state : a.state = b.state
  buffer : a.buffer = b.buffer
  highlighter : a.highlighter.Alike b.highlighter
  events : a.events = b.events

/-- How far two queues have been run, up to what the parsers have counted and the states of files
other than the one with the key. -/
structure Editor.Drain.Alike {σ : Type} (key : FileKey) (a b : Drain σ) : Prop where
  lexer : a.reader.lexer = b.reader.lexer
  state : a.registry.get? key = b.registry.get? key
  dirty : a.dirty = b.dirty
  fresh : a.fresh = b.fresh
  ran : a.ran = b.ran
  events : a.events = b.events

/-- What two runs leave, up to what the parsers have counted and the states of files other than the
one with the key. -/
structure Editor.Ran.Alike {σ : Type} (key : FileKey) (a b : Ran σ) : Prop where
  result : a.result = b.result
  editor : a.editor = b.editor
  highlighter : a.highlighter.Alike b.highlighter
  state : a.registry.get? key = b.registry.get? key
  events : a.events = b.events

namespace Highlighter

section

variable {σ : Type} {a b c : Highlighter σ}

theorem Alike.refl (highlighter : Highlighter σ) : highlighter.Alike highlighter :=
  ⟨rfl, rfl, rfl⟩

theorem Alike.symm (h : a.Alike b) : b.Alike a := ⟨h.lexer.symm, h.rules.symm, h.enabled.symm⟩

theorem Alike.trans (h : a.Alike b) (h' : b.Alike c) : a.Alike c :=
  ⟨h.lexer.trans h'.lexer, h.rules.trans h'.rules, h.enabled.trans h'.enabled⟩

theorem apply_congr (h : a.rules = b.rules) (text : Text) (state : FileState)
    (buffer : TextBuffer) : a.apply text state buffer = b.apply text state buffer := by
  unfold apply
  rw [h]

/-- Painting what was lexed does not depend on what a parser counted before. -/
theorem finish_congr (h : a.Alike b) (text : Text) (buffer : TextBuffer)
    (lexed : Outcome σ Window) : a.finish text buffer lexed = b.finish text buffer lexed := by
  unfold finish
  rw [h.rules, h.enabled]

theorem repaint_congr [Lexer σ] (h : a.Alike b) (text : Text) (start stop : Nat)
    (state : FileState) (buffer : TextBuffer) :
    (a.repaint text start stop state buffer).Alike (b.repaint text start stop state buffer) := by
  unfold repaint whenEnabled
  rw [h.enabled, Relex.range_congr h.lexer, finish_congr h]
  split_ifs
  · exact ⟨rfl, rfl, rfl, .refl _, rfl⟩
  · exact ⟨rfl, rfl, rfl, h, rfl⟩

end

end Highlighter

namespace Editor

section

variable {σ : Type} {key : FileKey}

namespace Drain

variable {a b : Drain σ}

theorem absorb_congr {outcome : Outcome σ Window} (hdirty : a.dirty = b.dirty)
    (hran : a.ran = b.ran) (hfresh : a.fresh = b.fresh) (hevents : a.events = b.events) :
    (a.absorb key outcome).1 = (b.absorb key outcome).1 ∧
      (a.absorb key outcome).2.Alike key (b.absorb key outcome).2 := by
  have hstate : (a.registry.set key outcome.state).get? key =
      (b.registry.set key outcome.state).get? key := by
    rw [Registry.get?_set, Registry.get?_set, if_pos rfl, if_pos rfl]
  unfold absorb
  dsimp only
  rw [hdirty, hran, hfresh, hevents]
  cases outcome.result with
  | error e => exact ⟨rfl, rfl, hstate, rfl, rfl, rfl, rfl⟩
  | ok window => exact ⟨rfl, rfl, hstate, rfl, rfl, rfl, rfl⟩

variable [Lexer σ]

/-- One task keeps two runs alike. -/
theorem step_congr (h : a.Alike key b) (path : String) (task : HighlightTask) :
    (a.step path key task).1 = (b.step path key task).1 ∧
      (a.step path key task).2.Alike key (b.step path key task).2 := by
  cases task with
  | entire text =>
    have hcreated : (a.registry.getOrCreate key path).1 = (b.registry.getOrCreate key path).1 ∧
        (a.registry.getOrCreate key path).2.2 = (b.registry.getOrCreate key path).2.2 := by
      unfold Registry.getOrCreate
      rw [h.state]
      cases b.registry.get? key <;> exact ⟨rfl, rfl⟩
    rw [step, step]
    dsimp only
    rw [hcreated.1, Relex.entire_congr h.lexer]
    apply absorb_congr
    · rfl
    · exact h.ran
    · exact h.fresh
    · dsimp only
      rw [hcreated.2, h.events]
  | region text edit =>
    rw [step, step]
    dsimp only
    rw [h.state]
    cases hstate : b.registry.get? key with
    | none =>
      refine ⟨rfl, h.lexer, h.state, ?_, rfl, h.ran, ?_⟩
      · dsimp only
        rw [h.dirty]
      · dsimp only
        rw [h.events]
    | some state =>
      dsimp only
      rw [Relex.afterEdit_congr h.lexer]
      apply absorb_congr
      · dsimp only
        rw [h.dirty]
      · exact h.ran
      · rfl
      · exact h.events

theorem run_congr (h : a.Alike key b) (path : String) (tasks : List HighlightTask) :
    (run path key tasks a).1 = (run path key tasks b).1 ∧
      (run path key tasks a).2.Alike key (run path key tasks b).2 := by
  induction tasks generalizing a b with
  | nil => exact ⟨rfl, h⟩
  | cons task rest ih =>
    obtain ⟨hresult, hnext⟩ := step_congr h path task
    rw [run, run]
    rcases hfirst : a.step path key task with ⟨first, next⟩
    rcases hsecond : b.step path key task with ⟨second, next'⟩
    rw [hfirst, hsecond] at hresult hnext
    obtain rfl : first = second := hresult
    cases first with
    | error e => exact ⟨rfl, hnext⟩
    | ok _ => exact ih hnext

end Drain

theorem discard_congr {a b : Highlighter σ} (h : a.Alike b) (editor : Editor)
    (first second : Registry) (events : List Event) (e : HighlightError) :
    (editor.discard key a first events e).Alike key (editor.discard key b second events e) := by
  refine ⟨rfl, rfl, h, ?_, rfl⟩
  dsimp only [discard]
  rw [Registry.get?_erase, Registry.get?_erase, if_pos rfl, if_pos rfl]

variable [Lexer σ] {a b : Highlighter σ}

theorem paintDirty_congr (h : a.Alike b) (editor : Editor) (state : FileState) (dirty : Span)
    (fresh : Option Span) :
    (editor.paintDirty a state dirty fresh).Alike (editor.paintDirty b state dirty fresh) := by
  unfold paintDirty
  dsimp only
  rw [Highlighter.apply_congr h.rules]
  split_ifs
  · exact ⟨rfl, rfl, rfl, h, rfl⟩
  · exact Highlighter.repaint_congr h _ _ _ _ _

theorem finishRun_congr (h : a.Alike b) {first second : Drain σ} (hdrain : first.Alike key second)
    (editor : Editor) :
    (editor.finishRun a key first).Alike key (editor.finishRun b key second) := by
  unfold finishRun
  dsimp only
  rw [hdrain.state, hdrain.dirty, hdrain.fresh, hdrain.ran, hdrain.events]
  cases second.dirty with
  | none => exact ⟨rfl, rfl, h, hdrain.state, rfl⟩
  | some dirty =>
    cases second.registry.get? key with
    | none => exact ⟨rfl, rfl, h, hdrain.state, rfl⟩
    | some state =>
      have hpaint := paintDirty_congr h { editor with pending := [] } state dirty second.fresh
      dsimp only
      rw [hpaint.result, hpaint.state, hpaint.buffer, hpaint.events]
      split
      · exact discard_congr hpaint.highlighter _ _ _ _ _
      · refine ⟨rfl, rfl, hpaint.highlighter, ?_, rfl⟩
        rw [Registry.get?_set, Registry.get?_set, if_pos rfl, if_pos rfl]

/-- A run depends on the highlighter by its lexer and its rules and whether it is on, and on the
registry by the state of its own file. -/
theorem runPending_congr (h : a.Alike b) {first second : Registry}
    (hstate : first.get? key = second.get? key) (editor : Editor) :
    (editor.runPending a first key).Alike key (editor.runPending b second key) := by
  unfold runPending
  rw [h.enabled, h.rules]
  split_ifs
  · obtain ⟨hresult, hdrain⟩ := @Drain.run_congr _ _ { reader := a.toReader, registry := first }
      { reader := b.toReader, registry := second } _ ⟨h.lexer, hstate, rfl, rfl, rfl, rfl⟩
      editor.path editor.pending
    dsimp only
    rw [hresult]
    split
    · rw [hdrain.events]
      apply discard_congr
      exact ⟨hdrain.lexer, rfl, rfl⟩
    · apply finishRun_congr _ hdrain
      exact ⟨hdrain.lexer, rfl, rfl⟩
  · exact ⟨rfl, rfl, h, hstate, rfl⟩

end

theorem Drain.absorb_registry {σ : Type} (drain : Drain σ) (key : FileKey)
    (outcome : Outcome σ Window) :
    (drain.absorb key outcome).2.registry = drain.registry.set key outcome.state := by
  unfold absorb
  dsimp only
  split <;> rfl

section

variable {σ : Type} [Lexer σ] {key other : FileKey}

theorem Drain.step_registry (hne : other ≠ key) (drain : Drain σ) (path : String)
    (task : HighlightTask) :
    (drain.step path key task).2.registry.get? other = drain.registry.get? other := by
  cases task with
  | entire text =>
    rw [step]
    dsimp only
    rw [absorb_registry, Registry.get?_set, if_neg hne]
    unfold Registry.getOrCreate
    cases drain.registry.get? key with
    | none =>
      dsimp only
      rw [Registry.get?_set, if_neg hne]
    | some state => rfl
  | region text edit =>
    rw [step]
    dsimp only
    cases drain.registry.get? key with
    | none => rfl
    | some state =>
      dsimp only
      rw [absorb_registry, Registry.get?_set, if_neg hne]

theorem Drain.run_registry (hne : other ≠ key) (path : String) (tasks : List HighlightTask)
    (drain : Drain σ) :
    (Drain.run path key tasks drain).2.registry.get? other = drain.registry.get? other := by
  induction tasks generalizing drain with
  | nil => rfl
  | cons task rest ih =>
    have hstep := drain.step_registry hne path task
    rw [run]
    rcases hnext : drain.step path key task with ⟨_ | _, next⟩
    · rw [hnext] at hstep
      exact hstep
    · rw [hnext] at hstep
      exact (ih next).trans hstep

theorem runPending_registry (hne : other ≠ key) (editor : Editor) (highlighter : Highlighter σ)
    (registry : Registry) :
    (editor.runPending highlighter registry key).registry.get? other = registry.get? other := by
  have hrun := Drain.run_registry (σ := σ) hne editor.path editor.pending
    { reader := highlighter.toReader, registry := registry }
  unfold runPending
  split
  · rcases hnext : Drain.run editor.path key editor.pending
      { reader := highlighter.toReader, registry := registry } with ⟨e | _, drain⟩
    · rw [hnext] at hrun
      dsimp only [discard]
      rw [Registry.get?_erase, if_neg hne]
      exact hrun
    · rw [hnext] at hrun
      dsimp only at hrun ⊢
      unfold finishRun
      split
      · dsimp only
        split
        · dsimp only [discard]
          rw [Registry.get?_erase, if_neg hne, hrun]
        · dsimp only
          rw [Registry.get?_set, if_neg hne, hrun]
      · exact hrun
  · rfl

theorem paintDirty_text (editor : Editor) (highlighter : Highlighter σ) (state : FileState)
    (dirty : Span) (fresh : Option Span) :
    (editor.paintDirty highlighter state dirty fresh).buffer.text = editor.buffer.text := by
  unfold paintDirty
  dsimp only
  split_ifs
  · exact Paint.paint_text _ _
  · unfold Highlighter.repaint Highlighter.whenEnabled Highlighter.finish
    split_ifs
    · dsimp only
      split
      · rfl
      · exact Paint.paint_text _ _
    · rfl

theorem finishRun_editor (editor : Editor) (highlighter : Highlighter σ) (key : FileKey)
    (drain : Drain σ) :
    ∃ tasks buffer, (editor.finishRun highlighter key drain).editor =
        { editor with pending := tasks, buffer := buffer } ∧
      buffer.text = editor.buffer.text ∧ (tasks = [] ∨ tasks = [.entire editor.buffer.text]) := by
  unfold finishRun
  split
  · next dirty state _ _ =>
    have htext := paintDirty_text { editor with pending := [] } highlighter state dirty drain.fresh
    dsimp only at htext ⊢
    split
    · refine ⟨_, _, rfl, htext, .inr ?_⟩
      rw [← htext]
      rfl
    · exact ⟨[], _, rfl, htext, .inl rfl⟩
  · exact ⟨[], editor.buffer, rfl, rfl, .inl rfl⟩

/-- All that running the queue changes of an editor, whatever the lexer, is its styles and its
queue, which is empty or holds one task for the whole text. -/
theorem runPending_editor (editor : Editor) (highlighter : Highlighter σ) (registry : Registry)
    (key : FileKey) :
    ∃ tasks buffer, (editor.runPending highlighter registry key).editor =
        { editor with pending := tasks, buffer := buffer } ∧
      buffer.text = editor.buffer.text ∧ (tasks = [] ∨ tasks = [.entire editor.buffer.text]) := by
  unfold runPending
  split_ifs
  · dsimp only
    split
    · exact ⟨_, editor.buffer, rfl, rfl, .inr rfl⟩
    · exact finishRun_editor editor _ key _
  · exact ⟨[], editor.buffer, rfl, rfl, .inl rfl⟩

theorem paintDirty_highlighter (editor : Editor) (highlighter : Highlighter σ) (state : FileState)
    (dirty : Span) (fresh : Option Span) :
    ∃ reader, (editor.paintDirty highlighter state dirty fresh).highlighter =
      { highlighter with toReader := reader } := by
  unfold paintDirty Highlighter.repaint Highlighter.whenEnabled Highlighter.finish
  dsimp only
  split_ifs
  · exact ⟨_, rfl⟩
  · split <;> exact ⟨_, rfl⟩
  · exact ⟨_, rfl⟩

theorem finishRun_highlighter (editor : Editor) (highlighter : Highlighter σ) (key : FileKey)
    (drain : Drain σ) :
    ∃ reader, (editor.finishRun highlighter key drain).highlighter =
      { highlighter with toReader := reader } := by
  unfold finishRun
  dsimp only
  split
  · split <;> exact paintDirty_highlighter _ highlighter _ _ _
  · exact ⟨_, rfl⟩

/-- All that running the queue changes of the highlighter is what lexer and parser keep. -/
theorem runPending_highlighter (editor : Editor) (highlighter : Highlighter σ)
    (registry : Registry) (key : FileKey) :
    ∃ reader, (editor.runPending highlighter registry key).highlighter =
      { highlighter with toReader := reader } := by
  unfold runPending
  split_ifs
  · dsimp only
    split
    · exact ⟨_, rfl⟩
    · exact finishRun_highlighter editor _ key _
  · exact ⟨_, rfl⟩

end

/-- The row lexer keeps nothing from one text to the next, so a run leaves a highlighter that is
like the one before. -/
theorem runPending_alike (editor : Editor) (highlighter : Highlighter LineLexer)
    (registry : Registry) (key : FileKey) :
    (editor.runPending highlighter registry key).highlighter.Alike highlighter := by
  obtain ⟨reader, hreader⟩ := editor.runPending_highlighter highlighter registry key
  rw [hreader]
  exact ⟨rfl, rfl, rfl⟩

/-- Only alike: the parser has counted an open bracket. -/
example :
    (((Editor.new {} "a").insert 0 ['(']).2.runPending .standard {}
      (.spelled false false ["a"])).highlighter.parser = ⟨1⟩ := by
  decide +kernel

end Editor
end LiveHighlight
