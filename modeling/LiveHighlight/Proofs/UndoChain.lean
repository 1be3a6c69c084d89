import Mathlib
import LiveHighlight.Editor
import LiveHighlight.Proofs.HistoryStacks

/-! The history of an editor as a chain of texts. The applied entries lead from a first text to the
text of the buffer, and the undone entries lead on from there. Every request keeps the chain, so
there is always a text to go back to or on to, and replaying an entry never fails. -/

namespace LiveHighlight

/-- An operation takes one text to another. -/
inductive Operation.Takes : Operation → Text → Text → Prop
  | insert (front typed rest : Text) :
    Takes ⟨.insert, front.length, typed⟩ (front ++ rest) (front ++ typed ++ rest)
  | remove (front typed rest : Text) :
    Takes ⟨.remove, front.length, typed⟩ (front ++ typed ++ rest) (front ++ rest)

namespace Operation

variable {op next merged : Operation} {position : Nat} {typed a b c : Text}

theorem takes_insert (ha : position ≤ a.length) :
    Takes ⟨.insert, position, typed⟩ a (a.take position ++ typed ++ a.drop position) := by
  have h := Takes.insert (a.take position) typed (a.drop position)
  rwa [List.take_append_drop, List.length_take, Nat.min_eq_left ha] at h

theorem takes_remove {length : Nat} (ha : position + length ≤ a.length) :
    Takes ⟨.remove, position, a.slice position (position + length)⟩ a
      (a.take position ++ a.drop (position + length)) := by
  have h := Takes.remove (a.take position) (a.slice position (position + length))
    (a.drop (position + length))
  have hsplit : a.take position ++ a.slice position (position + length) ++
      a.drop (position + length) = a := by
    rw [Text.slice, Nat.add_sub_cancel_left, ← List.take_add, List.take_append_drop]
  rwa [hsplit, List.length_take, Nat.min_eq_left (by omega)] at h

theorem Takes.inverse (h : op.Takes a b) : op.inverse.Takes b a := by
  cases h with
  | insert front typed rest => exact .remove front typed rest
  | remove front typed rest => exact .insert front typed rest

theorem Takes.eq (h : op.Takes a b) :
    b = match op.kind with
      | .insert => a.take op.position ++ op.text ++ a.drop op.position
      | .remove => a.take op.position ++ a.drop (op.position + op.text.length) := by
  cases h with
  | insert front typed rest => simp
  | remove front typed rest => simp

theorem Takes.unique (hb : op.Takes a b) (hc : op.Takes a c) : b = c := hb.eq.trans hc.eq.symm

theorem Takes.in_range (h : op.Takes a b) :
    match op.kind with
      | .insert => op.position ≤ a.length
      | .remove => op.position + op.text.length ≤ a.length := by
  cases h with
  | insert front typed rest => simp
  | remove front typed rest => simp

/-- An operation that grew does what the two did one after the other. -/
theorem Takes.extends (hextends : op.Extends next merged) (hop : op.Takes a b)
    (hnext : next.Takes b c) : merged.Takes a c := by
  cases hop with
  | insert front typed rest =>
    generalize hb : front ++ typed ++ rest = b at hnext
    cases hnext with
    | insert front' typed' rest' =>
      generalize hposition : front'.length = position at hextends
      cases hextends with
      | typed _ _ c hbreak =>
        obtain ⟨rfl, rfl⟩ := List.append_inj hb (by rw [List.length_append, hposition])
        simpa only [List.append_assoc] using Takes.insert front (typed ++ [c]) rest
    | remove front' typed' rest' => cases hextends
  | remove front typed rest =>
    generalize hb : front ++ rest = b at hnext
    generalize hfront : front.length = position at hextends
    cases hnext with
    | insert front' typed' rest' => cases hextends
    | remove front' typed' rest' =>
      cases hextends with
      | deletedLeft _ _ c hbreak =>
        obtain ⟨rfl, rfl⟩ := List.append_inj hb (by rw [List.length_append, hfront]; rfl)
        simpa only [List.append_assoc, List.singleton_append] using
          Takes.remove front' ([c] ++ typed) rest
      | deletedRight _ _ c hbreak =>
        rw [List.append_assoc] at hb
        obtain ⟨rfl, rfl⟩ := List.append_inj hb hfront
        simpa only [List.append_assoc] using Takes.remove front (typed ++ [c]) rest'

end Operation

namespace TextBuffer

theorem insert_takes {buffer next : TextBuffer} {offset : Nat} {typed : Text}
    {change : BufferChange} (h : buffer.insert offset typed = .ok (change, next)) :
    (Operation.ofChange change).Takes buffer.text next.text := by
  unfold insert at h
  split_ifs at h with hin
  cases h
  exact Operation.takes_insert hin

theorem remove_takes {buffer next : TextBuffer} {offset length : Nat} {change : BufferChange}
    (h : buffer.remove offset length = .ok (change, next)) :
    (Operation.ofChange change).Takes buffer.text next.text := by
  unfold remove at h
  split_ifs at h with hin
  cases h
  exact Operation.takes_remove hin

end TextBuffer

/-- Entries, the last one first, that lead from a first text to a text. -/
def Behind (first : Text) : List HistoryEntry → Text → Prop
  | [], text => text = first
  | entry :: older, text => ∃ before, entry.operation.Takes before text ∧ Behind first older before

/-- Entries, the next one first, that lead on from a text. -/
def Ahead : List HistoryEntry → Text → Prop
  | [], _ => True
  | entry :: later, text => ∃ after, entry.operation.Takes text after ∧ Ahead later after

theorem Behind.dropLast {first text : Text} {entries : List HistoryEntry} (hne : entries ≠ [])
    (h : Behind first entries text) : ∃ second, Behind second entries.dropLast text := by
  induction entries generalizing text with
  | nil => exact absurd rfl hne
  | cons entry older ih =>
    obtain ⟨before, htakes, hbehind⟩ := h
    cases older with
    | nil => exact ⟨text, rfl⟩
    | cons _ _ =>
      obtain ⟨second, hsecond⟩ := ih (List.cons_ne_nil _ _) hbehind
      exact ⟨second, before, htakes, hsecond⟩

theorem exists_texts_ahead {entries : List HistoryEntry} {text : Text} (h : Ahead entries text) :
    ∃ texts : Nat → Text, texts 0 = text ∧
      ∀ (i : Nat) (entry : HistoryEntry), entries[i]? = some entry →
        entry.operation.Takes (texts i) (texts (i + 1)) := by
  induction entries generalizing text with
  | nil => exact ⟨fun _ => text, rfl, by simp⟩
  | cons entry later ih =>
    obtain ⟨after, htakes, hahead⟩ := h
    obtain ⟨texts, hfirst, hchain⟩ := ih hahead
    refine ⟨fun i => i.casesOn text texts, rfl, fun i e he => ?_⟩
    cases i with
    | zero =>
      obtain rfl := Option.some.inj he
      change entry.operation.Takes text (texts 0)
      rwa [hfirst]
    | succ i => exact hchain i e he

/-- A chain of entries on both sides of a text, as a sequence of texts. -/
theorem exists_texts {applied undone : List HistoryEntry} {first text : Text}
    (hbehind : Behind first applied text) (hahead : Ahead undone text) :
    ∃ texts : Nat → Text, texts 0 = first ∧ texts applied.length = text ∧
      ∀ (i : Nat) (entry : HistoryEntry), (applied.reverse ++ undone)[i]? = some entry →
        entry.operation.Takes (texts i) (texts (i + 1)) := by
  induction applied generalizing undone text with
  | nil =>
    obtain ⟨texts, htext, hchain⟩ := exists_texts_ahead hahead
    exact ⟨texts, htext.trans hbehind, htext, hchain⟩
  | cons entry older ih =>
    obtain ⟨before, htakes, hbehind⟩ := hbehind
    -- seen from the text before it, the entry is the next one
    have hahead' : Ahead (entry :: undone) before := ⟨text, htakes, hahead⟩
    obtain ⟨texts, hfirst, hbefore, hchain⟩ := ih hbehind hahead'
    have hentries : (entry :: older).reverse ++ undone = older.reverse ++ entry :: undone := by
      simp
    have hentry : (older.reverse ++ entry :: undone)[older.length]? = some entry := by simp
    have hlast := hchain older.length entry hentry
    rw [hbefore] at hlast
    exact ⟨texts, hfirst, hlast.unique htakes, hentries ▸ hchain⟩

/-- Whether recording an operation pushes the oldest entry out. -/
def History.pushesOut (history : History) (op : Operation) : Bool :=
  let kept := history.entries.take history.applied
  history.recording && (history.coalesce? kept op).isNone &&
    decide (history.limit < kept.length + 1)

theorem Stacks.pushesOut_toHistory (s : Stacks) (op : Operation) :
    s.toHistory.pushesOut op =
      (s.recording && (s.coalesce? op).isNone && decide (s.limit < s.applied.length + 1)) := by
  unfold History.pushesOut
  dsimp only
  rw [take_toHistory, coalesce?_toHistory, List.length_reverse]
  rfl

theorem Stacks.record_behind {s : Stacks} {op : Operation} {first before after : Text}
    (hrecording : s.recording = true) (h : Behind first s.applied before)
    (hop : op.Takes before after) :
    ∃ first', Behind first' (s.record op).2.applied after ∧
      (s.toHistory.pushesOut op = false → first' = first) := by
  have hpushed : Behind first (⟨op, false⟩ :: s.applied) after := ⟨before, hop, h⟩
  rw [record, if_pos hrecording, pushesOut_toHistory]
  cases hmerge : s.coalesce? op with
  | some entry =>
    -- the last entry grows, so the chain is as long as it was
    obtain ⟨last, older, merged, happlied, -, -, hextends, rfl⟩ := coalesce?_eq_some hmerge
    rw [happlied] at h ⊢
    obtain ⟨start, htakes, hbehind⟩ := h
    exact ⟨first, ⟨start, htakes.extends hextends hop, hbehind⟩, fun _ => rfl⟩
  | none =>
    dsimp only [push]
    split_ifs with hlimit
    · -- the oldest entry is gone, and the chain starts one text later
      obtain ⟨second, hsecond⟩ := hpushed.dropLast (List.cons_ne_nil _ _)
      refine ⟨second, hsecond, fun hkept => ?_⟩
      rw [List.length_cons] at hlimit
      simp [hrecording] at hkept
      omega
    · exact ⟨first, hpushed, fun _ => rfl⟩

namespace Editor

/-- The history of an editor is that of two stacks, which lead from a first text to the text of the
buffer, and on from it. -/
structure Linked (first : Text) (s : Stacks) (editor : Editor) : Prop where
  history_eq : editor.history = s.toHistory
  recording : s.recording = true
  behind : Behind first s.applied editor.buffer.text
  ahead : Ahead s.undone editor.buffer.text

theorem replay_takes {editor : Editor} {op : Operation} {after : Text}
    (hrecording : editor.history.recording = true) (h : op.Takes editor.buffer.text after) :
    ∃ next, editor.replay op = (.ok (), next) ∧ next.buffer.text = after ∧
      next.history = editor.history := by
  have heq := h.eq
  have hrange := h.in_range
  have hhistory : ({ editor.history with recording := true } : History) = editor.history := by
    rw [← hrecording]
  unfold replay
  cases hkind : op.kind with
  | insert =>
    rw [hkind] at heq hrange
    have hin : op.position ≤ editor.buffer.length := hrange
    dsimp only [TextBuffer.insert]
    rw [if_pos hin]
    exact ⟨_, rfl, heq.symm, hhistory⟩
  | remove =>
    rw [hkind] at heq hrange
    have hin : op.position + op.text.length ≤ editor.buffer.length := hrange
    dsimp only [TextBuffer.remove]
    rw [if_pos hin]
    exact ⟨_, rfl, heq.symm, hhistory⟩

section

variable {first : Text} {s : Stacks} {editor : Editor}

theorem Linked.undo_eq (h : editor.Linked first s) {entry : HistoryEntry}
    {older : List HistoryEntry} (happlied : s.applied = entry :: older) :
    ∃ next, editor.undo = (.ok true, next) ∧
      entry.operation.Takes next.buffer.text editor.buffer.text ∧
      next.Linked first { s with
        applied := older, undone := { entry with finished := true } :: s.undone } := by
  have hbehind := h.behind
  rw [happlied] at hbehind
  obtain ⟨before, htakes, hbehind⟩ := hbehind
  obtain ⟨next, hreplay, htext, hhistory⟩ :=
    replay_takes (h.history_eq ▸ h.recording) htakes.inverse
  have hop : editor.history.undoOperation = some entry.operation.inverse := by
    rw [h.history_eq, Stacks.undoOperation_toHistory, happlied]
    rfl
  refine ⟨{ next with history := next.history.commitUndo }, ?_, ?_, ?_, h.recording, ?_, ?_⟩
  · rw [Editor.undo, hop, replayThen, hreplay]
  · rw [htext]
    exact htakes
  · rw [hhistory, h.history_eq, Stacks.commitUndo_toHistory, Stacks.commitUndo, happlied]
  · rw [htext]
    exact hbehind
  · rw [htext]
    exact ⟨editor.buffer.text, htakes, h.ahead⟩

theorem Linked.redo_eq (h : editor.Linked first s) {entry : HistoryEntry}
    {later : List HistoryEntry} (hundone : s.undone = entry :: later) :
    ∃ next, editor.redo = (.ok true, next) ∧
      entry.operation.Takes editor.buffer.text next.buffer.text ∧
      next.Linked first { s with
        applied := { entry with finished := true } :: s.applied, undone := later } := by
  have hahead := h.ahead
  rw [hundone] at hahead
  obtain ⟨after, htakes, hahead⟩ := hahead
  obtain ⟨next, hreplay, htext, hhistory⟩ := replay_takes (h.history_eq ▸ h.recording) htakes
  have hop : editor.history.redoOperation = some entry.operation := by
    rw [h.history_eq, Stacks.redoOperation_toHistory, hundone]
    rfl
  refine ⟨{ next with history := next.history.commitRedo }, ?_, ?_, ?_, h.recording, ?_, ?_⟩
  · rw [Editor.redo, hop, replayThen, hreplay]
  · rw [htext]
    exact htakes
  · rw [hhistory, h.history_eq, Stacks.commitRedo_toHistory, Stacks.commitRedo, hundone]
  · rw [htext]
    exact ⟨editor.buffer.text, htakes, h.behind⟩
  · rw [htext]
    exact hahead

theorem Linked.undo_of_nil (h : editor.Linked first s) (happlied : s.applied = []) :
    editor.undo = (.ok false, editor) := by
  rw [Editor.undo, h.history_eq, Stacks.undoOperation_toHistory, happlied]
  rfl

theorem Linked.redo_of_nil (h : editor.Linked first s) (hundone : s.undone = []) :
    editor.redo = (.ok false, editor) := by
  rw [Editor.redo, h.history_eq, Stacks.redoOperation_toHistory, hundone]
  rfl

theorem Linked.undo (h : editor.Linked first s) : ∃ s', editor.undo.2.Linked first s' := by
  cases happlied : s.applied with
  | nil =>
    rw [h.undo_of_nil happlied]
    exact ⟨s, h⟩
  | cons entry older =>
    obtain ⟨next, hundo, -, hlinked⟩ := h.undo_eq happlied
    rw [hundo]
    exact ⟨_, hlinked⟩

theorem Linked.redo (h : editor.Linked first s) : ∃ s', editor.redo.2.Linked first s' := by
  cases hundone : s.undone with
  | nil =>
    rw [h.redo_of_nil hundone]
    exact ⟨s, h⟩
  | cons entry later =>
    obtain ⟨next, hredo, -, hlinked⟩ := h.redo_eq hundone
    rw [hredo]
    exact ⟨_, hlinked⟩

/-- Whether a change makes the history drop its oldest entry. -/
def dropsOn (editor : Editor) : Except BufferError (BufferChange × TextBuffer) → Bool
  | .ok (change, _) => editor.history.pushesOut (.ofChange change)
  | .error _ => false

theorem Linked.update (h : editor.Linked first s)
    {attempt : Except BufferError (BufferChange × TextBuffer)}
    (hattempt : ∀ change buffer, attempt = .ok (change, buffer) →
      (Operation.ofChange change).Takes editor.buffer.text buffer.text) :
    ∃ first' s', (editor.update attempt).2.Linked first' s' ∧
      (editor.dropsOn attempt = false → first' = first) := by
  cases attempt with
  | error e => exact ⟨first, s, h, fun _ => rfl⟩
  | ok result =>
    obtain ⟨change, buffer⟩ := result
    obtain ⟨first', hbehind, hkept⟩ :=
      Stacks.record_behind h.recording h.behind (hattempt change buffer rfl)
    refine ⟨first', (s.record (.ofChange change)).2, ⟨?_, ?_, hbehind, ?_⟩, ?_⟩
    · dsimp only [Editor.update, changed]
      rw [h.history_eq, Stacks.record_toHistory]
    · rw [Stacks.record, if_pos h.recording]
      exact h.recording
    · rw [Stacks.record, if_pos h.recording]
      trivial
    · rw [dropsOn, h.history_eq]
      exact hkept

/-- The requests that change a text and its history. -/
inductive Request where
  | insert (offset : Nat) (text : Text)
  | remove (offset length : Nat)
  | undo
  | redo
  deriving DecidableEq, Repr

/-- An editor after a request, whether it was refused or not. -/
def answer (editor : Editor) : Request → Editor
  | .insert offset text => (editor.insert offset text).2
  | .remove offset length => (editor.remove offset length).2
  | .undo => editor.undo.2
  | .redo => editor.redo.2

/-- Whether a request makes the history drop its oldest entry. -/
def drops (editor : Editor) : Request → Bool
  | .insert offset text =>
    let typed := expandTabs editor.tabReplacement text
    typed ≠ [] && editor.dropsOn (editor.buffer.insert offset typed)
  | .remove offset length => length ≠ 0 && editor.dropsOn (editor.buffer.remove offset length)
  | .undo | .redo => false

def answers (editor : Editor) (requests : List Request) : Editor := requests.foldl answer editor

/-- Whether none of some requests makes the history drop an entry. -/
def keepsAll (editor : Editor) : List Request → Bool
  | [] => true
  | request :: rest => !editor.drops request && (editor.answer request).keepsAll rest

theorem Linked.answer (h : editor.Linked first s) (request : Request) :
    ∃ first' s', (editor.answer request).Linked first' s' ∧
      (editor.drops request = false → first' = first) := by
  cases request with
  | insert offset text =>
    unfold Editor.answer Editor.insert drops
    dsimp only
    split_ifs with htyped
    · exact ⟨first, s, h, fun _ => rfl⟩
    · have htakes : ∀ change buffer,
          editor.buffer.insert offset (expandTabs editor.tabReplacement text) =
            .ok (change, buffer) →
          (Operation.ofChange change).Takes editor.buffer.text buffer.text :=
        fun _ _ => TextBuffer.insert_takes
      obtain ⟨first', s', hlinked, hkept⟩ := h.update htakes
      exact ⟨first', s', hlinked, fun hdrops => hkept (by simpa [htyped] using hdrops)⟩
  | remove offset length =>
    unfold Editor.answer Editor.remove drops
    dsimp only
    split_ifs with hzero
    · exact ⟨first, s, h, fun _ => rfl⟩
    · have htakes : ∀ change buffer,
          editor.buffer.remove offset length = .ok (change, buffer) →
          (Operation.ofChange change).Takes editor.buffer.text buffer.text :=
        fun _ _ => TextBuffer.remove_takes
      obtain ⟨first', s', hlinked, hkept⟩ := h.update htakes
      exact ⟨first', s', hlinked, fun hdrops => hkept (by simpa [hzero] using hdrops)⟩
  | undo =>
    obtain ⟨s', hlinked⟩ := h.undo
    exact ⟨first, s', hlinked, fun _ => rfl⟩
  | redo =>
    obtain ⟨s', hlinked⟩ := h.redo
    exact ⟨first, s', hlinked, fun _ => rfl⟩

theorem Linked.answers (h : editor.Linked first s) (requests : List Request) :
    ∃ first' s', (editor.answers requests).Linked first' s' ∧
      (editor.keepsAll requests = true → first' = first) := by
  induction requests generalizing editor first s with
  | nil => exact ⟨first, s, h, fun _ => rfl⟩
  | cons request rest ih =>
    obtain ⟨middle, between, hmiddle, hkept⟩ := h.answer request
    obtain ⟨first', s', hlinked, hkept'⟩ := ih hmiddle
    refine ⟨first', s', hlinked, fun hall => ?_⟩
    simp only [keepsAll, Bool.and_eq_true, Bool.not_eq_true'] at hall
    rw [hkept' hall.2, hkept hall.1]

theorem linked_loadText (h : editor.history = s.toHistory) (hrecording : s.recording = true)
    (text : Text) :
    (editor.loadText text).Linked text { s with applied := [], undone := [] } := by
  refine ⟨?_, hrecording, rfl, trivial⟩
  show editor.history.clear = _
  rw [h]
  rfl

theorem linked_new (settings : Settings) (path : String) :
    (Editor.new settings path).Linked []
      { Stacks.ofLimit settings.historyLimit with coalescing := settings.coalesceEdits } :=
  ⟨rfl, rfl, rfl, trivial⟩

theorem Linked.undo_answer (h : editor.Linked first s) :
    editor.undo.1 = .ok (decide (0 < editor.history.applied)) := by
  rw [h.history_eq, Stacks.toHistory_applied]
  cases happlied : s.applied with
  | nil =>
    rw [h.undo_of_nil happlied]
    rfl
  | cons entry older =>
    obtain ⟨next, hundo, -⟩ := h.undo_eq happlied
    rw [hundo]
    simp

theorem Linked.redo_answer (h : editor.Linked first s) :
    editor.redo.1 = .ok (decide (editor.history.applied < editor.history.size)) := by
  rw [h.history_eq, Stacks.toHistory_applied, Stacks.toHistory_size]
  cases hundone : s.undone with
  | nil =>
    rw [h.redo_of_nil hundone]
    simp
  | cons entry later =>
    obtain ⟨next, hredo, -⟩ := h.redo_eq hundone
    rw [hredo]
    simp

theorem Linked.exists_applied (h : editor.Linked first s) (hpos : 0 < editor.history.applied) :
    ∃ entry older, s.applied = entry :: older ∧ editor.history.applied = older.length + 1 ∧
      editor.history.entries[older.length]? = some entry := by
  rw [h.history_eq, Stacks.toHistory_applied] at hpos
  obtain ⟨entry, older, happlied⟩ := List.exists_cons_of_length_pos hpos
  refine ⟨entry, older, happlied, ?_, ?_⟩
  · rw [h.history_eq, Stacks.toHistory_applied, happlied, List.length_cons]
  · rw [h.history_eq]
    simp [happlied]

theorem Linked.exists_undone (h : editor.Linked first s)
    (hlt : editor.history.applied < editor.history.size) :
    ∃ entry later, s.undone = entry :: later ∧
      editor.history.entries[editor.history.applied]? = some entry := by
  rw [h.history_eq, Stacks.toHistory_applied, Stacks.toHistory_size] at hlt
  obtain ⟨entry, later, hundone⟩ :=
    List.exists_cons_of_length_pos (Nat.pos_of_lt_add_right hlt)
  refine ⟨entry, later, hundone, ?_⟩
  rw [h.history_eq]
  simp [hundone]

theorem Linked.undo_redo (h : editor.Linked first s) (hpos : 0 < editor.history.applied) :
    editor.undo.2.redo.1 = .ok true ∧
      editor.undo.2.redo.2.buffer.text = editor.buffer.text ∧
      editor.undo.2.redo.2.history.position = editor.history.position := by
  obtain ⟨entry, older, happlied, -⟩ := h.exists_applied hpos
  -- the entry that was undone is the next one to redo, only marked as finished
  obtain ⟨next, hundo, htakes, hlinked⟩ := h.undo_eq happlied
  obtain ⟨again, hredo, htakes', hlinked'⟩ := hlinked.redo_eq rfl
  rw [hundo, hredo]
  refine ⟨rfl, htakes'.unique htakes, ?_⟩
  rw [hlinked'.history_eq, h.history_eq, Stacks.position_toHistory, Stacks.position_toHistory,
    happlied]

/-- An editor that was given a text after some requests, and more requests since then. -/
def worked (settings : Settings) (path : String) (earlier : List Request) (text : Text)
    (requests : List Request) : Editor :=
  (((Editor.new settings path).answers earlier).loadText text).answers requests

/-- The buffer and the history of an editor never drift apart. There are texts such that each entry
leads from one to the next, and the text of the buffer is the one after the applied entries. The
first one is the text that was loaded, as long as no entry was dropped. Undoing goes to the text
before, redoing to the text after, and neither fails. -/
theorem history_is_chain (settings : Settings) (path : String) (earlier : List Request)
    (text : Text) (requests : List Request) :
    let editor := worked settings path earlier text requests
    let applied := editor.history.applied
    ∃ texts : Nat → Text,
      (∀ (i : Nat) (entry : HistoryEntry), editor.history.entries[i]? = some entry →
        entry.operation.Takes (texts i) (texts (i + 1))) ∧
      editor.buffer.text = texts applied ∧
      editor.history.position = (if applied = 0 then none else some (applied - 1)) ∧
      ((((Editor.new settings path).answers earlier).loadText text).keepsAll requests = true →
        texts 0 = text) ∧
      editor.undo.1 = .ok (decide (0 < applied)) ∧
      editor.redo.1 = .ok (decide (applied < editor.history.size)) ∧
      (0 < applied → editor.undo.2.buffer.text = texts (applied - 1)) ∧
      (applied < editor.history.size → editor.redo.2.buffer.text = texts (applied + 1)) ∧
      (0 < applied → editor.undo.2.redo.1 = .ok true ∧
        editor.undo.2.redo.2.buffer.text = editor.buffer.text ∧
        editor.undo.2.redo.2.history.position = editor.history.position) := by
  intro editor applied
  obtain ⟨_, before, hused, -⟩ := (linked_new settings path).answers earlier
  obtain ⟨first, s, hlinked, hkept⟩ :=
    (linked_loadText hused.history_eq hused.recording text).answers requests
  change editor.Linked first s at hlinked
  obtain ⟨texts, hfirst, htext, hchain⟩ := exists_texts hlinked.behind hlinked.ahead
  have happlied : s.applied.length = applied := by
    show _ = editor.history.applied
    rw [hlinked.history_eq, Stacks.toHistory_applied]
  rw [happlied] at htext
  have hentries (i : Nat) (entry : HistoryEntry)
      (hentry : editor.history.entries[i]? = some entry) :
      entry.operation.Takes (texts i) (texts (i + 1)) := by
    rw [hlinked.history_eq] at hentry
    exact hchain i entry hentry
  refine ⟨texts, hentries, htext.symm, rfl, fun hall => hfirst.trans (hkept hall),
    hlinked.undo_answer, hlinked.redo_answer, fun hpos => ?_, fun hlast => ?_, hlinked.undo_redo⟩
  · obtain ⟨entry, older, htop, hlength, hentry⟩ := hlinked.exists_applied hpos
    obtain ⟨next, hundo, htakes, -⟩ := hlinked.undo_eq htop
    have hlast := hentries older.length entry hentry
    rw [← hlength, htext] at hlast
    have hbefore : applied - 1 = older.length := by
      show editor.history.applied - 1 = older.length
      rw [hlength, Nat.add_sub_cancel]
    rw [hundo, hbefore]
    exact htakes.inverse.unique hlast.inverse
  · obtain ⟨entry, later, htop, hentry⟩ := hlinked.exists_undone hlast
    obtain ⟨next, hredo, htakes, -⟩ := hlinked.redo_eq htop
    have hnext := hentries applied entry hentry
    rw [htext] at hnext
    rw [hredo]
    exact htakes.unique hnext

end

end Editor
end LiveHighlight
