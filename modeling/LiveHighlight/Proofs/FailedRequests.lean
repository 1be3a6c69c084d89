import Mathlib
import LiveHighlight.Proofs.SessionSteps

/-! Requests that fail. An edit, an undo or redo, and the reading or writing of a file leave the
editors, the states of files and the highlighter if they fail, whatever they meet: a history that
does not fit its buffer is left as it is, with recording on. An insertion and a removal fail exactly
if they reach past the end of the buffer, and this is what a test on words finds whose sum stops at
the largest word. -/

namespace LiveHighlight

/-- The sum of two words. It stops at the largest one. -/
def wordSum (a b : UInt64) : UInt64 := if a + b < a then UInt64.ofNat maxOffset else a + b

/-- The range lies in a text of some length. -/
def inBounds (start stop : UInt64) (length : Nat) : Bool := start ≤ stop && stop.toNat ≤ length

theorem toNat_wordSum (a b : UInt64) : (wordSum a b).toNat = min (a.toNat + b.toNat) maxOffset := by
  have ha := a.toNat_lt
  have hb := b.toNat_lt
  unfold wordSum
  split_ifs with hwraps
  · rw [UInt64.lt_iff_toNat_lt, UInt64.toNat_add] at hwraps
    have hmax : (UInt64.ofNat maxOffset).toNat = maxOffset := rfl
    rw [hmax, maxOffset]
    omega
  · rw [UInt64.lt_iff_toNat_lt, UInt64.toNat_add] at hwraps
    rw [UInt64.toNat_add, maxOffset]
    omega

/-- For a text that is shorter than the largest word, a sum that stops there does no harm. -/
theorem inBounds_wordSum {length : Nat} (h : length < maxOffset) (offset count : UInt64) :
    inBounds offset (wordSum offset count) length = true ↔
      offset.toNat + count.toNat ≤ length := by
  have hoffset := offset.toNat_lt
  simp only [inBounds, Bool.and_eq_true, decide_eq_true_eq, UInt64.le_iff_toNat_le, toNat_wordSum]
  rw [maxOffset] at h ⊢
  omega

namespace Editor

variable {editor : Editor} {e : BufferError}

theorem update_failed {attempt : Except BufferError (BufferChange × TextBuffer)}
    (h : (editor.update attempt).1 = .error e) :
    attempt = .error e ∧ (editor.update attempt).2 = editor := by
  cases attempt with
  | ok made => cases h
  | error error =>
    cases h
    exact ⟨rfl, rfl⟩

theorem insert_failed {offset : Nat} {text : Text} (h : (editor.insert offset text).1 = .error e) :
    (editor.insert offset text).2 = editor := by
  unfold insert at h ⊢
  dsimp only at h ⊢
  split_ifs at h with htyped
  rw [if_neg htyped]
  exact (update_failed h).2

theorem remove_failed {offset length : Nat} (h : (editor.remove offset length).1 = .error e) :
    (editor.remove offset length).2 = editor := by
  unfold remove at h ⊢
  split_ifs at h with hlength
  rw [if_neg hlength]
  exact (update_failed h).2

/-- Recording is switched off before an operation is replayed, and on again also if it fails. -/
theorem replay_failed (hrecording : editor.history.recording = true) {op : Operation}
    (h : (editor.replay op).1 = .error e) : (editor.replay op).2 = editor := by
  have hsame : (editor.record false).record true = editor := by
    unfold record
    dsimp only
    rw [← hrecording]
  show (Editor.update _ _).2.record true = editor
  rw [(update_failed h).2, hsame]

theorem replayThen_failed (hrecording : editor.history.recording = true) {op : Option Operation}
    {commit : History → History} (h : (editor.replayThen op commit).1 = .error e) :
    (editor.replayThen op commit).2 = editor := by
  unfold replayThen at h ⊢
  cases op with
  | none => cases h
  | some op =>
    dsimp only at h ⊢
    split at h
    · next error replayed hreplay =>
      have hfailed : (editor.replay op).1 = .error error := by rw [hreplay]
      have hsame := replay_failed hrecording hfailed
      rwa [hreplay] at hsame
    · cases h

theorem insert_fails_iff (editor : Editor) (offset : Nat) (text : Text) :
    (∃ e, (editor.insert offset text).1 = .error e) ↔
      expandTabs editor.tabReplacement text ≠ [] ∧ editor.buffer.length < offset := by
  unfold insert
  dsimp only
  split_ifs with htyped
  · simp [htyped]
  · unfold TextBuffer.insert
    split_ifs with hinside
    · simp [update, hinside]
    · simp [update, htyped, Nat.not_le.1 hinside]

theorem remove_fails_iff (editor : Editor) (offset length : Nat) :
    (∃ e, (editor.remove offset length).1 = .error e) ↔
      length ≠ 0 ∧ editor.buffer.length < offset + length := by
  unfold remove
  split_ifs with hlength
  · simp [hlength]
  · unfold TextBuffer.remove
    split_ifs with hinside
    · simp [update, hinside]
    · simp [update, hlength, Nat.not_le.1 hinside]

end Editor

theorem Reply.ofEdit_eq_failed {result : Except BufferError Unit} {error : EditorError}
    (h : Reply.ofEdit result = .failed error) : ∃ e, result = .error e := by
  cases result with
  | ok _ => cases h
  | error e => exact ⟨e, rfl⟩

theorem Reply.ofEdit_fails_iff {result : Except BufferError Unit} :
    (∃ error, Reply.ofEdit result = .failed error) ↔ ∃ e, result = .error e := by
  constructor
  · rintro ⟨error, h⟩
    exact Reply.ofEdit_eq_failed h
  · rintro ⟨e, rfl⟩
    exact ⟨.buffer e, rfl⟩

theorem Reply.ofReplay_eq_failed {result : Except BufferError Bool} {error : EditorError}
    (h : Reply.ofReplay result = .failed error) : ∃ e, result = .error e := by
  cases result with
  | ok _ => cases h
  | error e => exact ⟨e, rfl⟩

namespace Session

variable {session : Session} {index : Nat} {editor : Editor}

theorem setEditor_same (heditor : session.editors[index]? = some editor) :
    session.setEditor index editor = session := by
  obtain ⟨hlt, rfl⟩ := List.getElem?_eq_some_iff.1 heditor
  rw [setEditor, List.set_getElem_self]

/-- Two sessions with the same editors, states of files and highlighter. What the files hold is left
open. -/
structure SameOpen (a b : Session) : Prop where
  editors : a.editors = b.editors
  registry : a.registry = b.registry
  highlighter : a.highlighter = b.highlighter

theorem saveEditor_failed {path : String} {error : EditorError}
    (h : (session.saveEditor index editor path).1 = .failed error) :
    (session.saveEditor index editor path).2.SameOpen session := by
  unfold saveEditor at h ⊢
  split at h
  · exact ⟨rfl, rfl, rfl⟩
  · cases h

theorem openEditor_failed {path : String} {error : EditorError}
    (h : (session.openEditor index editor path).1 = .failed error) :
    (session.openEditor index editor path).2.1.SameOpen session ∧
      (session.openEditor index editor path).2.2 = [] := by
  unfold openEditor at h ⊢
  split at h
  · exact ⟨⟨rfl, rfl, rfl⟩, rfl⟩
  · cases h

/-- A request that fails leaves the editors, the states and the highlighter, and no trace in the
log. -/
theorem perform_failed (heditor : session.editors[index]? = some editor)
    (hrecording : editor.history.recording = true) {action : Action} (hrun : action ≠ .runPending)
    {error : EditorError} (h : (session.perform index action).1 = .failed error) :
    (session.perform index action).2.1.SameOpen session ∧
      (session.perform index action).2.2 = [] := by
  have hset {next : Editor} (hnext : next = editor) :
      (session.setEditor index next).SameOpen session := by
    rw [hnext, setEditor_same heditor]
    exact ⟨rfl, rfl, rfl⟩
  unfold perform at h ⊢
  rw [heditor] at h ⊢
  cases action with
  | loadText text => cases h
  | insert offset text =>
    obtain ⟨e, he⟩ := Reply.ofEdit_eq_failed h
    exact ⟨hset (Editor.insert_failed he), rfl⟩
  | remove offset length =>
    obtain ⟨e, he⟩ := Reply.ofEdit_eq_failed h
    exact ⟨hset (Editor.remove_failed he), rfl⟩
  | undo =>
    obtain ⟨e, he⟩ := Reply.ofReplay_eq_failed h
    exact ⟨hset (Editor.replayThen_failed hrecording he), rfl⟩
  | redo =>
    obtain ⟨e, he⟩ := Reply.ofReplay_eq_failed h
    exact ⟨hset (Editor.replayThen_failed hrecording he), rfl⟩
  | rehighlight => cases h
  | runPending => exact absurd rfl hrun
  | openFile path => exact openEditor_failed h
  | save => exact ⟨saveEditor_failed h, rfl⟩
  | saveAs path => exact ⟨saveEditor_failed h, rfl⟩
  | close => cases h

theorem perform_insert_fails_iff (heditor : session.editors[index]? = some editor) (offset : Nat)
    (text : Text) :
    (∃ error, (session.perform index (.insert offset text)).1 = .failed error) ↔
      expandTabs editor.tabReplacement text ≠ [] ∧ editor.buffer.length < offset := by
  rw [← Editor.insert_fails_iff, ← Reply.ofEdit_fails_iff, perform, heditor]

theorem perform_remove_fails_iff (heditor : session.editors[index]? = some editor)
    (offset length : Nat) :
    (∃ error, (session.perform index (.remove offset length)).1 = .failed error) ↔
      length ≠ 0 ∧ editor.buffer.length < offset + length := by
  rw [← Editor.remove_fails_iff, ← Reply.ofEdit_fails_iff, perform, heditor]

/-- A request that fails leaves its editor exactly as it was, with all other editors, the states of
all files and the highlighter, and no trace in the log; only the highlighting of tasks has more to
say about failures. What becomes of a file that could not be written is left open. Insertions fail
if there is something to insert past the end of the buffer, removals if there is something to remove
past its end, and in no other case. For words the second test may be made on a sum that stops at the
largest word. -/
theorem failed_request_changes_nothing (heditor : session.editors[index]? = some editor)
    (hrecording : editor.history.recording = true) :
    (∀ action error, action ≠ .runPending → (session.perform index action).1 = .failed error →
      (session.perform index action).2.1.editors = session.editors ∧
      (session.perform index action).2.1.registry = session.registry ∧
      (session.perform index action).2.1.highlighter = session.highlighter ∧
      (session.perform index action).2.2 = []) ∧
    (∀ offset text,
      (∃ error, (session.perform index (.insert offset text)).1 = .failed error) ↔
        expandTabs editor.tabReplacement text ≠ [] ∧ editor.buffer.length < offset) ∧
    (∀ offset length,
      (∃ error, (session.perform index (.remove offset length)).1 = .failed error) ↔
        length ≠ 0 ∧ editor.buffer.length < offset + length) ∧
    (editor.buffer.length < maxOffset → ∀ offset length : UInt64,
      (∃ error, (session.perform index (.remove offset.toNat length.toNat)).1 = .failed error) ↔
        length ≠ 0 ∧
          inBounds offset (wordSum offset length) editor.buffer.length = false) := by
  refine ⟨fun action error hrun hfailed => ?_, perform_insert_fails_iff heditor,
    perform_remove_fails_iff heditor, fun hshort offset length => ?_⟩
  · obtain ⟨hsame, hsilent⟩ := perform_failed heditor hrecording hrun hfailed
    exact ⟨hsame.editors, hsame.registry, hsame.highlighter, hsilent⟩
  · have hzero : length.toNat ≠ 0 ↔ length ≠ 0 := by
      rw [ne_eq, ne_eq, ← UInt64.toNat_inj]
      rfl
    have houtside : inBounds offset (wordSum offset length) editor.buffer.length = false ↔
        editor.buffer.length < offset.toNat + length.toNat := by
      rw [Bool.eq_false_iff, ne_eq, inBounds_wordSum hshort, Nat.not_le]
    rw [perform_remove_fails_iff heditor, hzero, houtside]

/-- An undo of a typed character that the buffer does not hold fails, and the editor is the same
after it, with the entry and recording on. -/
theorem failed_request_changes_nothing_unfit :
    let editor : Editor :=
      { history := { entries := [⟨⟨.insert, 5, ['a']⟩, false⟩], applied := 1, limit := 3 }
        tabReplacement := [' ', ' ']
        path := "a" }
    let session : Session := { editors := [editor] }
    session.editors[0]? = some editor ∧ editor.history.recording = true ∧
      (session.perform 0 .undo).1 = .failed (.buffer ⟨5, 6, 0⟩) ∧
      (session.perform 0 .undo).2.1.editors = [editor] := by
  intro editor session
  have hfailed : (session.perform 0 .undo).1 = .failed (.buffer ⟨5, 6, 0⟩) := by decide
  have heditor : session.editors[0]? = some editor := rfl
  obtain ⟨hnothing, -⟩ := failed_request_changes_nothing heditor rfl
  obtain ⟨hsame, -⟩ := hnothing .undo _ nofun hfailed
  exact ⟨heditor, rfl, hfailed, hsame⟩

end Session
end LiveHighlight
