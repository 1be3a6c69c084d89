import Mathlib
import LiveHighlight.Proofs.SessionSteps

/-! Editors of different files do not influence each other. A run reads and writes the state of one
file only, and of the highlighter that all of them share it changes only what the parser has
counted, which no run reads. So what an editor is asked among requests to others has the answers and
the effect that it has in a session where the editor is alone with a highlighter of its own. -/

namespace LiveHighlight

/-- The requests after which an editor still shows the file it showed before, and which write no
file. -/
def Action.keepsFile (action : Action) : Bool := action.edits || action = .close

namespace Session

/-- Does what the editors are asked, in order, and collects the answers with what is logged. -/
def performAll (session : Session) : List (Nat × Action) → List (Reply × List Event) × Session
  | [] => ([], session)
  | call :: rest =>
    let (reply, next, events) := session.perform call.1 call.2
    let (answers, last) := next.performAll rest
    ((reply, events) :: answers, last)

/-- What one of the editors is asked. -/
def callsTo (index : Nat) (calls : List (Nat × Action)) : List Action :=
  (calls.filter (·.1 = index)).map (·.2)

/-- The answers that go with what one of the editors is asked. -/
def answersTo (index : Nat) (calls : List (Nat × Action)) (answers : List (Reply × List Event)) :
    List (Reply × List Event) :=
  ((calls.zip answers).filter (·.1.1 = index)).map (·.2)

/-- What a session has for one of its editors: the editor, the key of its file, the state that is
stored for it, and the standard highlighter up to what its parser has counted. -/
structure Holds (session : Session) (index : Nat) (editor : Editor) (key : FileKey)
    (state : Option FileState) : Prop where
  shown : session.editors[index]? = some editor
  keyed : session.files.key editor.path = key
  stored : session.registry.get? key = state
  standard : session.highlighter.Alike .standard

section

variable {s t : Session} {i j : Nat} {editor next : Editor} {key : FileKey}
  {state : Option FileState} {action : Action}

theorem Holds.key? (h : s.Holds i editor key state) : s.key? i = some key := by
  rw [Session.key?, h.shown, Option.map_some, h.keyed]

theorem Holds.state? (h : s.Holds i editor key state) : s.state? i = state := by
  rw [state?_eq h.shown, h.keyed, h.stored]

theorem Holds.set (h : s.Holds i editor key state) (hpath : next.path = editor.path)
    {registry : Registry} {after : Option FileState} (hafter : registry.get? key = after)
    {highlighter : Highlighter LineLexer} (hstandard : highlighter.Alike .standard) :
    ({ s with registry := registry, highlighter := highlighter }.setEditor i next).Holds i next
      key after := by
  let shared : Session := { s with registry := registry, highlighter := highlighter }
  have hshown : shared.editors[i]? = some editor := h.shown
  refine ⟨editors_setEditor_self hshown next, ?_, hafter, hstandard⟩
  rw [hpath]
  exact h.keyed

/-- Two sessions that answer the same to an editor and then have the same for it. -/
def Agree (i : Nat) (s : Reply × Session × List Event) (j : Nat)
    (t : Reply × Session × List Event) (key : FileKey) : Prop :=
  s.1 = t.1 ∧ s.2.2 = t.2.2 ∧
    ∃ next after, s.2.1.Holds i next key after ∧ t.2.1.Holds j next key after

theorem Holds.agree_run (hs : s.Holds i editor key state) (ht : t.Holds j editor key state) :
    Agree i (s.perform i .runPending) j (t.perform j .runPending) key := by
  obtain ⟨tasks, buffer, heditor, -, -⟩ := editor.runPending_editor s.highlighter s.registry key
  have hpath : (editor.runPending s.highlighter s.registry key).editor.path = editor.path := by
    rw [heditor]
  -- both runs start from the same state, and their highlighters differ in the parser only
  have hsame := Editor.runPending_congr (hs.standard.trans ht.standard.symm)
    (hs.stored.trans ht.stored.symm) editor
  have hstandard (session : Session) (h : session.highlighter.Alike .standard) :
      (editor.runPending session.highlighter session.registry key).highlighter.Alike .standard :=
    (editor.runPending_alike session.highlighter session.registry key).trans h
  rw [perform, perform, hs.shown, ht.shown]
  dsimp only [runEditor]
  rw [hs.keyed, ht.keyed, ← hsame.result, ← hsame.editor, ← hsame.events]
  exact ⟨rfl, rfl, _, _, hs.set hpath rfl (hstandard s hs.standard),
    ht.set hpath hsame.state.symm (hstandard t ht.standard)⟩

theorem Holds.agree_close (hs : s.Holds i editor key state) (ht : t.Holds j editor key state) :
    Agree i (s.perform i .close) j (t.perform j .close) key := by
  have hopen (session : Session) (h : session.registry.get? key = state) :
      (session.registry.close key).1 = state.isSome := by
    rw [Registry.close, Registry.isOpen, h]
  have herased (registry : Registry) : (registry.erase key).get? key = none := by
    rw [Registry.get?_erase, if_pos rfl]
  have hpath : (editor.close s.registry key).1.path = editor.path := rfl
  rw [perform, perform, hs.shown, ht.shown]
  dsimp only [closeEditor, Editor.close]
  rw [hs.keyed, ht.keyed, hopen s hs.stored, hopen t ht.stored]
  exact ⟨rfl, rfl, _, none, hs.set hpath (herased _) hs.standard,
    ht.set hpath (herased _) ht.standard⟩

/-- A request that keeps the file has the same answer and the same effect in any two sessions that
have the same for the editor. -/
theorem Holds.agree (hs : s.Holds i editor key state) (ht : t.Holds j editor key state)
    (hkeeps : action.keepsFile = true) :
    Agree i (s.perform i action) j (t.perform j action) key := by
  by_cases hrun : action = .runPending
  · rw [hrun]
    exact hs.agree_run ht
  by_cases hclose : action = .close
  · rw [hclose]
    exact hs.agree_close ht
  have hedits : action.edits = true := by
    rw [Action.keepsFile, decide_eq_false hclose, Bool.or_false] at hkeeps
    exact hkeeps
  obtain ⟨reply, next, -, hpath, -, hperform⟩ := perform_own editor hedits hrun
  rw [hperform s i hs.shown, hperform t j ht.shown]
  exact ⟨rfl, rfl, next, state, hs.set hpath hs.stored hs.standard,
    ht.set hpath ht.stored ht.standard⟩

theorem perform_files (hkeeps : action.keepsFile = true) (session : Session) (index : Nat) :
    (session.perform index action).2.1.files = session.files := by
  unfold perform
  cases session.editors[index]? with
  | none => rfl
  | some editor => cases action <;> first | rfl | cases hkeeps

/-- A request that keeps the file changes no editor's key. -/
theorem perform_key? (hkeeps : action.keepsFile = true)
    (hstandard : s.highlighter.Alike .standard) (i j : Nat) :
    (s.perform j action).2.1.key? i = s.key? i := by
  by_cases hne : j = i
  · subst hne
    cases hshown : s.editors[j]? with
    | none =>
      unfold perform
      rw [hshown]
    | some editor =>
      have h : s.Holds j editor (s.files.key editor.path) _ := ⟨hshown, rfl, rfl, hstandard⟩
      obtain ⟨-, -, next, after, hnext, -⟩ := h.agree h hkeeps
      rw [hnext.key?, h.key?]
  · rw [key?, key?, perform_editors hne, perform_files hkeeps]

/-- A request to another editor leaves all that a session has for an editor. -/
theorem Holds.other (h : s.Holds i editor key state) (hkeeps : action.keepsFile = true)
    (hne : s.key? j ≠ some key) : (s.perform j action).2.1.Holds i editor key state := by
  rw [← h.key?] at hne
  obtain ⟨hshown, hstate⟩ := perform_other hne action (perform_key? hkeeps h.standard i j)
  have hshown := hshown.trans h.shown
  have hkeyed : (s.perform j action).2.1.files.key editor.path = key := by
    rw [perform_files hkeeps, h.keyed]
  refine ⟨hshown, hkeyed, ?_, (perform_highlighter s j action).trans h.standard⟩
  rw [state?_eq hshown, hkeyed, h.state?] at hstate
  exact hstate

/-- Among requests to editors of other files, an editor is answered as if it were alone. -/
theorem Holds.performAll (hs : s.Holds i editor key state) (ht : t.Holds j editor key state)
    (hothers : ∀ other, other ≠ i → s.key? other ≠ some key) {calls : List (Nat × Action)}
    (hkeep : ∀ call ∈ calls, call.2.keepsFile = true) :
    answersTo i calls (s.performAll calls).1 =
        (t.performAll ((callsTo i calls).map (j, ·))).1 ∧
      ∃ next after, (s.performAll calls).2.Holds i next key after ∧
        (t.performAll ((callsTo i calls).map (j, ·))).2.Holds j next key after := by
  induction calls generalizing s t editor state with
  | nil => exact ⟨rfl, editor, state, hs, ht⟩
  | cons call rest ih =>
    have hkeeps := hkeep call List.mem_cons_self
    have hrest : ∀ call ∈ rest, call.2.keepsFile = true :=
      fun call h => hkeep call (List.mem_cons_of_mem _ h)
    have hnext : ∀ other, other ≠ i → (s.perform call.1 call.2).2.1.key? other ≠ some key := by
      intro other hne
      rw [perform_key? hkeeps hs.standard]
      exact hothers other hne
    by_cases hcall : call.1 = i
    · subst hcall
      obtain ⟨hreply, hevents, next, after, hs', ht'⟩ := hs.agree ht hkeeps
      obtain ⟨hanswers, hholds⟩ := ih hs' ht' hnext hrest
      have hcalls : callsTo call.1 (call :: rest) = call.2 :: callsTo call.1 rest := by
        simp [callsTo]
      have hown : answersTo call.1 (call :: rest) (s.performAll (call :: rest)).1 =
          ((s.perform call.1 call.2).1, (s.perform call.1 call.2).2.2) ::
            answersTo call.1 rest ((s.perform call.1 call.2).2.1.performAll rest).1 := by
        simp [answersTo, Session.performAll]
      rw [hcalls, hown, hreply, hevents, hanswers]
      exact ⟨rfl, hholds⟩
    · have hs' := hs.other hkeeps (hothers call.1 hcall)
      have hcalls : callsTo i (call :: rest) = callsTo i rest := by
        simp [callsTo, hcall]
      have hown : answersTo i (call :: rest) (s.performAll (call :: rest)).1 =
          answersTo i rest ((s.perform call.1 call.2).2.1.performAll rest).1 := by
        simp [answersTo, Session.performAll, hcall]
      rw [hcalls, hown]
      exact ih hs' ht hnext hrest

end

/-- Open files do not influence each other. Editors of different files share the standard
highlighter, whatever its parser has counted, and one registry, and are asked, in any order, what
keeps their files. Each of them gets the answers, and is left with the text, styles, history, queue
and stored state, of a session in which it is asked the same alone and with a highlighter of its
own. As it is left at the end, the shared highlighter still runs every queue as a new one does. -/
theorem performAll_isolated (files : Files) {shared : Highlighter LineLexer}
    (hshared : shared.Alike .standard) {editors : List Editor}
    (hkeys : (editors.map fun editor => files.key editor.path).Nodup)
    {calls : List (Nat × Action)} (hkeep : ∀ call ∈ calls, call.2.keepsFile = true)
    {index : Nat} {editor : Editor} (heditor : editors[index]? = some editor) :
    let together := ({ highlighter := shared, files := files, editors := editors } :
      Session).performAll calls
    let alone := ({ files := files, editors := [editor] } : Session).performAll
      ((callsTo index calls).map (0, ·))
    answersTo index calls together.1 = alone.1 ∧
      (∃ after, together.2.editors[index]? = some after ∧ alone.2.editors[0]? = some after) ∧
      together.2.state? index = alone.2.state? 0 ∧
      ∀ (run : Editor) (registry : Registry) (key : FileKey),
        (run.runPending together.2.highlighter registry key).Alike key
          (run.runPending .standard registry key) := by
  intro together alone
  let start : Session := { highlighter := shared, files := files, editors := editors }
  have hothers : ∀ other, other ≠ index → start.key? other ≠ some (files.key editor.path) := by
    intro other hne hsame
    have hlt : index < (editors.map fun editor => files.key editor.path).length := by
      rw [List.length_map]
      exact (List.getElem?_eq_some_iff.1 heditor).1
    refine hne ((List.getElem?_inj hlt hkeys).1 ?_).symm
    rw [List.getElem?_map, List.getElem?_map, heditor]
    exact hsame.symm
  have hstart : start.Holds index editor (files.key editor.path) none :=
    ⟨heditor, rfl, rfl, hshared⟩
  have hsingle : ({ files := files, editors := [editor] } : Session).Holds 0 editor
      (files.key editor.path) none := ⟨rfl, rfl, rfl, .refl _⟩
  obtain ⟨hanswers, after, state, htogether, halone⟩ :=
    hstart.performAll hsingle hothers hkeep
  refine ⟨hanswers, ⟨after, htogether.shown, halone.shown⟩, ?_, fun run registry key => ?_⟩
  · exact htogether.state?.trans halone.state?.symm
  · exact Editor.runPending_congr htogether.standard rfl run

/-- One editor opens a comment and a bracket and is closed while another types, runs and takes back.
The parser that they share has counted before. -/
theorem performAll_isolated_pair :
    let shared : Highlighter LineLexer := { Highlighter.standard with parser := ⟨7⟩ }
    let editors := [Editor.new {} "a", Editor.new {} "b"]
    let calls := [(0, .insert 0 ['(', '~', ':']), (1, .insert 0 ['1']), (0, .runPending),
      (1, .runPending), (0, .close), (1, .undo), (1, .runPending)]
    (editors.map fun editor => ({} : Files).key editor.path).Nodup ∧
      answersTo 1 calls
          (({ highlighter := shared, editors := editors } : Session).performAll calls).1 =
        (({ editors := [Editor.new {} "b"] } : Session).performAll
          [(0, .insert 0 ['1']), (0, .runPending), (0, .undo), (0, .runPending)]).1 := by
  intro shared editors calls
  have hkeys : (editors.map fun editor => ({} : Files).key editor.path).Nodup := by
    decide +kernel
  have hkeep : ∀ call ∈ calls, call.2.keepsFile = true := by decide
  obtain ⟨hanswers, -⟩ := @performAll_isolated {} shared ⟨rfl, rfl, rfl⟩ editors hkeys calls hkeep
    1 _ rfl
  exact ⟨hkeys, hanswers⟩

end Session
end LiveHighlight
