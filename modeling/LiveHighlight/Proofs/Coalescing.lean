import Mathlib
import LiveHighlight.Proofs.TwoStacks
import LiveHighlight.Proofs.UndoChain

/-! What coalescing does to undoing. Each entry of a history that coalesces stands for a run of
edits that were made one after the other, so undoing goes through some of the texts that it goes
through without coalescing, and skips the others. -/

namespace LiveHighlight

namespace Operation

/-- The text that an operation makes of a text. -/
def apply (op : Operation) (text : Text) : Text :=
  match op.kind with
  | .insert => text.take op.position ++ op.text ++ text.drop op.position
  | .remove => text.take op.position ++ text.drop (op.position + op.text.length)

/-- Operations that lead from one text to another, one after the other. -/
def Leads : List Operation → Text → Text → Prop
  | [], a, b => a = b
  | op :: rest, a, c => ∃ b, op.Takes a b ∧ Leads rest b c

/-- The texts that operations go through. -/
def trail (text : Text) : List Operation → List Text
  | [] => [text]
  | op :: rest => text :: trail (op.apply text) rest

/-- An operation stands for the operations that were merged into it. -/
inductive Stands : List Operation → Operation → Prop
  | one (op : Operation) : Stands [op] op
  | more {run : List Operation} {op next merged : Operation} (hrun : Stands run op)
    (hextends : op.Extends next merged) : Stands (run ++ [next]) merged

/-- What is undone and redone as a whole: edits of one kind, all but the first of a single character
and at most one of them a line break, that together do what one operation does. -/
structure Run (run : List Operation) (op : Operation) : Prop where
  ne_nil : run ≠ []
  kind_eq : ∀ edit ∈ run, edit.kind = op.kind
  single : ∀ edit ∈ run.tail, edit.text.length = 1
  breaks_le : run.countP (·.text = ['\n']) ≤ 1
  takes : ∀ a b, Leads run a b → op.Takes a b

section

variable {op : Operation} {run ops more : List Operation} {a b : Text}

theorem Takes.apply_eq (h : op.Takes a b) : op.apply a = b := h.eq.symm

theorem leads_append : Leads (ops ++ more) a b ↔ ∃ m, Leads ops a m ∧ Leads more m b := by
  induction ops generalizing a with
  | nil => simp [Leads]
  | cons op rest ih =>
    simp only [List.cons_append, Leads, ih]
    constructor
    · rintro ⟨n, hop, m, hrest, hmore⟩
      exact ⟨m, ⟨n, hop, hrest⟩, hmore⟩
    · rintro ⟨m, ⟨n, hop, hrest⟩, hmore⟩
      exact ⟨n, hop, m, hrest, hmore⟩

theorem leads_singleton : Leads [op] a b ↔ op.Takes a b := by simp [Leads]

theorem Leads.unique {c : Text} (hb : Leads ops a b) (hc : Leads ops a c) : b = c := by
  induction ops generalizing a with
  | nil => exact hb.symm.trans hc
  | cons op rest ih =>
    obtain ⟨m, hop, hrest⟩ := hb
    obtain ⟨n, hop', hrest'⟩ := hc
    rw [hop'.unique hop] at hrest'
    exact ih hrest hrest'

theorem Stands.ne_nil (h : Stands run op) : run ≠ [] := by
  cases h with
  | one => exact List.cons_ne_nil _ _
  | more hrun hextends => simp

theorem Stands.kind_eq (h : Stands run op) : ∀ edit ∈ run, edit.kind = op.kind := by
  induction h with
  | one op => simp
  | @more run op next merged hrun hextends ih =>
    have hkinds : op.kind = merged.kind ∧ next.kind = merged.kind := by
      cases hextends <;> exact ⟨rfl, rfl⟩
    intro edit hedit
    rcases List.mem_append.1 hedit with hedit | hedit
    · exact (ih edit hedit).trans hkinds.1
    · rw [List.mem_singleton.1 hedit]
      exact hkinds.2

theorem Stands.single (h : Stands run op) : ∀ edit ∈ run.tail, edit.text.length = 1 := by
  induction h with
  | one op => simp
  | more hrun hextends ih =>
    intro edit hedit
    rw [List.tail_append_of_ne_nil hrun.ne_nil] at hedit
    rcases List.mem_append.1 hedit with hedit | hedit
    · exact ih edit hedit
    · rw [List.mem_singleton.1 hedit]
      cases hextends <;> rfl

/-- A line break can only be typed last and only be deleted first. The second part is what the next
merge asks of a run that was typed. -/
theorem Stands.breaks (h : Stands run op) :
    run.countP (·.text = ['\n']) ≤ 1 ∧
      (op.kind = .insert → op.text.getLast? ≠ some '\n' → run.countP (·.text = ['\n']) = 0) := by
  induction h with
  | one op =>
    refine ⟨List.countP_le_length, fun _ hlast => ?_⟩
    rw [List.countP_eq_zero]
    intro edit hedit hbreak
    rw [List.mem_singleton.1 hedit, decide_eq_true_eq] at hbreak
    exact hlast (by rw [hbreak]; rfl)
  | more hrun hextends ih =>
    rw [List.countP_append, List.countP_singleton]
    cases hextends with
    | typed position text c hbreak =>
      rw [ih.2 rfl hbreak, Nat.zero_add]
      refine ⟨by split_ifs <;> omega, fun _ hlast => ?_⟩
      rw [if_neg]
      rw [decide_eq_true_eq, List.singleton_inj]
      intro hc
      exact hlast (by rw [hc, List.getLast?_concat])
    | deletedLeft position text c hbreak =>
      rw [if_neg (by simpa using hbreak)]
      exact ⟨ih.1, nofun⟩
    | deletedRight position text c hbreak =>
      rw [if_neg (by simpa using hbreak)]
      exact ⟨ih.1, nofun⟩

theorem Stands.takes (h : Stands run op) (hleads : Leads run a b) : op.Takes a b := by
  induction h generalizing b with
  | one op => exact leads_singleton.1 hleads
  | more hrun hextends ih =>
    obtain ⟨m, hfirst, hnext⟩ := leads_append.1 hleads
    exact (ih hfirst).extends hextends (leads_singleton.1 hnext)

theorem Stands.toRun (h : Stands run op) : Run run op :=
  ⟨h.ne_nil, h.kind_eq, h.single, h.breaks.1, fun _ _ => h.takes⟩

theorem head?_trail (text : Text) (ops : List Operation) : (trail text ops).head? = some text := by
  cases ops <;> rfl

theorem Leads.trail_append (h : Leads ops a b) (more : List Operation) :
    ∃ front, trail a (ops ++ more) = front ++ trail b more := by
  induction ops generalizing a with
  | nil => exact ⟨[], by rw [show a = b from h]; rfl⟩
  | cons op rest ih =>
    obtain ⟨m, hop, hrest⟩ := h
    obtain ⟨front, hfront⟩ := ih hrest
    exact ⟨a :: front, by rw [List.cons_append, trail, hop.apply_eq, hfront, List.cons_append]⟩

theorem Leads.trail_concat (h : Leads ops a b) (op : Operation) :
    trail a (ops ++ [op]) = trail a ops ++ [op.apply b] := by
  induction ops generalizing a with
  | nil =>
    rw [show a = b from h]
    rfl
  | cons first rest ih =>
    obtain ⟨m, hfirst, hrest⟩ := h
    rw [List.cons_append, trail, trail, hfirst.apply_eq, ih hrest, List.cons_append]

/-- Going through runs as a whole skips texts and adds none. -/
theorem trail_sublist {runs : List (List Operation)} (hruns : List.Forall₂ Stands runs ops)
    (hleads : Leads runs.flatten a b) : (trail a ops).Sublist (trail a runs.flatten) := by
  induction hruns generalizing a with
  | nil => exact List.Sublist.refl _
  | @cons run op runs ops hrun hrest ih =>
    rw [List.flatten_cons] at hleads ⊢
    obtain ⟨m, hfirst, hmore⟩ := leads_append.1 hleads
    rw [trail, (hrun.takes hfirst).apply_eq]
    -- only the text before the run is seen from both sides, so the first edit is split off
    obtain ⟨first, rest, rfl⟩ := List.exists_cons_of_ne_nil hrun.ne_nil
    obtain ⟨n, hop, hrun'⟩ := hfirst
    obtain ⟨front, hfront⟩ := hrun'.trail_append runs.flatten
    rw [List.cons_append, trail, hop.apply_eq, hfront]
    exact ((ih hmore).trans (List.sublist_append_right _ _)).cons_cons _

end

end Operation

open Operation

theorem Behind.leads {first text : Text} {entries : List HistoryEntry}
    (h : Behind first entries text) : Leads (entries.reverse.map (·.operation)) first text := by
  induction entries generalizing text with
  | nil => exact h.symm
  | cons entry older ih =>
    obtain ⟨before, htakes, hbehind⟩ := h
    rw [List.reverse_cons, List.map_append, leads_append]
    exact ⟨before, ih hbehind, leads_singleton.2 htakes⟩

/-- Entries, the last one first, that stand for edits in the order in which they were made. -/
def Grouped (done : List Operation) (entries : List HistoryEntry) : Prop :=
  ∃ runs : List (List Operation), runs.reverse.flatten = done ∧
    List.Forall₂ (fun run entry => Stands run entry.operation) runs entries

theorem Grouped.length_le {done : List Operation} {entries : List HistoryEntry}
    (h : Grouped done entries) : entries.length ≤ done.length := by
  obtain ⟨runs, rfl, hruns⟩ := h
  induction hruns with
  | nil => exact Nat.zero_le _
  | cons hrun hrest ih =>
    have hpos := List.length_pos_iff.2 hrun.ne_nil
    simp only [List.length_cons, List.reverse_cons, List.flatten_append, List.flatten_singleton,
      List.length_append]
    omega

namespace Stacks

variable {s next : Stacks} {op : Operation} {done : List Operation}

theorem Recorded.keeps (h : s.Recorded op next) :
    next.undone = [] ∧ next.limit = s.limit ∧ next.coalescing = s.coalescing ∧
      next.recording = s.recording := by
  cases h <;> exact ⟨rfl, rfl, rfl, rfl⟩

/-- An operation that is recorded joins the last run or starts one of its own. -/
theorem Recorded.grouped (h : s.Recorded op next) (hroom : s.applied.length < s.limit)
    (hgrouped : Grouped done s.applied) : Grouped (done ++ [op]) next.applied := by
  obtain ⟨runs, rfl, hruns⟩ := hgrouped
  cases h with
  | grown happlied hcoalescing hfinished hextends =>
    rw [happlied] at hruns
    cases hruns with
    | @cons run entry runs older hrun hrest =>
      exact ⟨(run ++ [op]) :: runs, by simp, .cons (.more hrun hextends) hrest⟩
  | added => exact ⟨[op] :: runs, by simp, .cons (.one op) hruns⟩
  | pushedOut hother happlied hfull => omega

theorem Recorded.plain (h : s.Recorded op next) (hroom : s.applied.length < s.limit)
    (hoff : s.coalescing = false) : next.applied = ⟨op, false⟩ :: s.applied := by
  cases h with
  | grown happlied hcoalescing => simp [hoff] at hcoalescing
  | added => rfl
  | pushedOut hother happlied hfull => omega

end Stacks

/-- A change of a text that is asked for. -/
inductive Change where
  | insert (offset : Nat) (text : Text)
  | remove (offset length : Nat)
  deriving DecidableEq, Repr

namespace Change

def request : Change → Editor.Request
  | .insert offset text => .insert offset text
  | .remove offset length => .remove offset length

/-- The edit of a text that a change amounts to. There is none outside of the text, and none where
nothing is typed or nothing is removed. -/
def edit? (tab text : Text) : Change → Option Operation
  | .insert offset typed =>
    if expandTabs tab typed ≠ [] ∧ offset ≤ text.length then
      some ⟨.insert, offset, expandTabs tab typed⟩
    else none
  | .remove offset length =>
    if length ≠ 0 ∧ offset + length ≤ text.length then
      some ⟨.remove, offset, text.slice offset (offset + length)⟩
    else none

/-- The edits that changes amount to, one after the other. -/
def edits (tab text : Text) : List Change → List Operation
  | [] => []
  | change :: rest =>
    match change.edit? tab text with
    | none => edits tab text rest
    | some op => op :: edits tab (op.apply text) rest

end Change

namespace Editor

theorem answer_of_none {editor : Editor} {change : Change}
    (h : change.edit? editor.tabReplacement editor.buffer.text = none) :
    editor.answer change.request = editor := by
  cases change with
  | insert offset text =>
    dsimp only [Change.edit?] at h
    dsimp only [Change.request, answer, insert]
    split_ifs at h with hin
    split_ifs with htyped
    · rfl
    · have hout : ¬ offset ≤ editor.buffer.length := fun hoffset => hin ⟨htyped, hoffset⟩
      rw [TextBuffer.insert, if_neg hout]
      rfl
  | remove offset length =>
    dsimp only [Change.edit?] at h
    dsimp only [Change.request, answer, remove]
    split_ifs at h with hin
    split_ifs with hzero
    · rfl
    · have hout : ¬ offset + length ≤ editor.buffer.length := fun hstop => hin ⟨hzero, hstop⟩
      rw [TextBuffer.remove, if_neg hout]
      rfl

theorem answer_of_some {editor : Editor} {change : Change} {op : Operation}
    (h : change.edit? editor.tabReplacement editor.buffer.text = some op) :
    op.Takes editor.buffer.text (editor.answer change.request).buffer.text ∧
      (editor.answer change.request).history = (editor.history.record op).2 ∧
      (editor.answer change.request).tabReplacement = editor.tabReplacement := by
  cases change with
  | insert offset text =>
    dsimp only [Change.edit?] at h
    split_ifs at h with hin
    cases h
    have hbuffer : offset ≤ editor.buffer.length := hin.2
    dsimp only [Change.request, answer, insert]
    rw [if_neg hin.1, TextBuffer.insert, if_pos hbuffer]
    exact ⟨takes_insert hin.2, rfl, rfl⟩
  | remove offset length =>
    dsimp only [Change.edit?] at h
    split_ifs at h with hin
    cases h
    have hbuffer : offset + length ≤ editor.buffer.length := hin.2
    dsimp only [Change.request, answer, remove]
    rw [if_neg hin.1, TextBuffer.remove, if_pos hbuffer]
    exact ⟨takes_remove hin.2, rfl, rfl⟩

/-- An editor in which some edits were made to a first text and are all there to undo. -/
structure Written (settings : Settings) (first : Text) (done : List Operation) (s : Stacks)
    (editor : Editor) : Prop where
  tab_eq : editor.tabReplacement = settings.tabReplacement
  limit_eq : s.limit = max settings.historyLimit 1
  coalescing_eq : s.coalescing = settings.coalesceEdits
  linked : editor.Linked first s
  undone : s.undone = []
  leads : Leads done first editor.buffer.text
  grouped : Grouped done s.applied
  plain : settings.coalesceEdits = false → s.applied.map (·.operation) = done.reverse

section

variable {settings : Settings} {first : Text} {done : List Operation} {s : Stacks}
  {editor : Editor}

theorem written_loadText (settings : Settings) (path : String) (text : Text) :
    Written settings text []
      { Stacks.ofLimit settings.historyLimit with coalescing := settings.coalesceEdits }
      ((Editor.new settings path).loadText text) := by
  have hnew := linked_new settings path
  exact ⟨rfl, rfl, rfl, linked_loadText hnew.history_eq rfl text, rfl, rfl, ⟨[], rfl, .nil⟩,
    fun _ => rfl⟩

theorem Written.answer (h : editor.Written settings first done s) {change : Change}
    {op : Operation} (hedit : change.edit? editor.tabReplacement editor.buffer.text = some op)
    (hroom : done.length < max settings.historyLimit 1) :
    (editor.answer change.request).Written settings first (done ++ [op]) (s.record op).2 := by
  obtain ⟨htakes, hhistory, htab⟩ := answer_of_some hedit
  have hrecording := h.linked.recording
  have hlength : s.applied.length < s.limit := by
    rw [h.limit_eq]
    exact h.grouped.length_le.trans_lt hroom
  have hrecorded := Stacks.record_recorded hrecording (Nat.zero_lt_of_lt hlength) op
  obtain ⟨hundone, hlimit, hcoalescing, hon⟩ := hrecorded.keeps
  obtain ⟨first', hbehind, hkept⟩ := Stacks.record_behind hrecording h.linked.behind htakes
  -- with room left no entry goes, so the chain still starts at the first text
  have hall : s.toHistory.pushesOut op = false := by
    have hfits : ¬ s.limit < s.applied.length + 1 := by omega
    simp [Stacks.pushesOut_toHistory, hfits]
  rw [hkept hall] at hbehind
  refine ⟨htab.trans h.tab_eq, hlimit.trans h.limit_eq, hcoalescing.trans h.coalescing_eq,
    ⟨?_, hon.trans hrecording, hbehind, ?_⟩, hundone, ?_, hrecorded.grouped hlength h.grouped,
    fun hoff => ?_⟩
  · rw [hhistory, h.linked.history_eq, Stacks.record_toHistory]
  · rw [hundone]
    trivial
  · exact leads_append.2 ⟨_, h.leads, leads_singleton.2 htakes⟩
  · rw [hrecorded.plain hlength (h.coalescing_eq.trans hoff), List.map_cons, h.plain hoff,
      List.reverse_append]
    rfl

/-- Changes add their edits to those that were made before, as long as the history has room. -/
theorem Written.answers (h : editor.Written settings first done s) (changes : List Change)
    (hroom : (done ++ Change.edits settings.tabReplacement editor.buffer.text changes).length ≤
      max settings.historyLimit 1) :
    ∃ s', (editor.answers (changes.map Change.request)).Written settings first
      (done ++ Change.edits settings.tabReplacement editor.buffer.text changes) s' := by
  induction changes generalizing editor done s with
  | nil =>
    rw [Change.edits, List.append_nil]
    exact ⟨s, h⟩
  | cons change rest ih =>
    rw [Change.edits] at hroom ⊢
    rw [List.map_cons, Editor.answers, List.foldl_cons]
    cases hedit : change.edit? settings.tabReplacement editor.buffer.text with
    | none =>
      rw [hedit] at hroom
      rw [answer_of_none (h.tab_eq ▸ hedit)]
      exact ih h hroom
    | some op =>
      have hmade : change.edit? editor.tabReplacement editor.buffer.text = some op :=
        h.tab_eq ▸ hedit
      rw [hedit] at hroom
      dsimp only at hroom ⊢
      rw [(answer_of_some hmade).1.apply_eq, List.append_cons] at hroom ⊢
      have hone : done.length < max settings.historyLimit 1 := by
        rw [List.length_append, List.length_append, List.length_singleton] at hroom
        omega
      exact ih (h.answer hmade hone) hroom

end

theorem update_unrecorded (editor : Editor)
    (attempt : Except BufferError (BufferChange × TextBuffer)) :
    (((editor.record false).update attempt).2.record true).history =
      { editor.history with recording := true } := by
  cases attempt <;> rfl

theorem replayThen_true {editor : Editor} {op : Option Operation} {commit : History → History}
    (h : (editor.replayThen op commit).1 = .ok true) :
    op ≠ none ∧ (editor.replayThen op commit).2.history =
      commit { editor.history with recording := true } := by
  cases op with
  | none => cases h
  | some op =>
    have hhistory : (editor.replay op).2.history = { editor.history with recording := true } :=
      update_unrecorded editor _
    refine ⟨Option.some_ne_none op, ?_⟩
    unfold replayThen at h ⊢
    dsimp only at h ⊢
    generalize editor.replay op = replayed at h hhistory ⊢
    obtain ⟨result, next⟩ := replayed
    cases result with
    | error e => cases h
    | ok _ => exact congrArg commit hhistory

theorem undo_applied_lt {editor : Editor} (h : editor.undo.1 = .ok true) :
    editor.undo.2.history.applied < editor.history.applied := by
  obtain ⟨hop, hhistory⟩ := replayThen_true h
  rw [undo, hhistory]
  unfold History.undoOperation History.position at hop
  unfold History.commitUndo History.position
  split_ifs at hop ⊢ with hzero
  · exact absurd rfl hop
  · exact Nat.sub_one_lt hzero

/-- The number of entries that are there to redo. -/
def toRedo (editor : Editor) : Nat := editor.history.size - editor.history.applied

theorem redo_toRedo_lt {editor : Editor} (h : editor.redo.1 = .ok true) :
    editor.redo.2.toRedo < editor.toRedo := by
  obtain ⟨hop, hhistory⟩ := replayThen_true h
  have hlt : editor.history.applied < editor.history.size := by
    by_contra hle
    rw [History.redoOperation, List.getElem?_eq_none (Nat.not_lt.1 hle)] at hop
    exact hop rfl
  have hmoved : History.commitRedo { editor.history with recording := true } = _ := if_pos hlt
  rw [toRedo, toRedo, redo, hhistory, hmoved]
  simp only [History.size, History.finish, List.length_modify] at hlt ⊢
  omega

/-- The texts that are seen while undoing as long as there is something to undo, from the text that
is there now. -/
def undoTexts (editor : Editor) : List Text :=
  if _h : editor.undo.1 = .ok true then editor.buffer.text :: editor.undo.2.undoTexts
  else [editor.buffer.text]
termination_by editor.history.applied
decreasing_by exact undo_applied_lt _h

/-- The editor when there is nothing left to undo. -/
def undoAll (editor : Editor) : Editor :=
  if _h : editor.undo.1 = .ok true then editor.undo.2.undoAll else editor
termination_by editor.history.applied
decreasing_by exact undo_applied_lt _h

/-- The editor when there is nothing left to redo. -/
def redoAll (editor : Editor) : Editor :=
  if _h : editor.redo.1 = .ok true then editor.redo.2.redoAll else editor
termination_by editor.toRedo
decreasing_by exact redo_toRedo_lt _h

section

variable {first : Text} {s : Stacks} {editor : Editor}

theorem Linked.undoTexts_eq (h : editor.Linked first s) :
    editor.undoTexts = (trail first (s.applied.reverse.map (·.operation))).reverse := by
  induction happlied : s.applied generalizing editor s with
  | nil =>
    have hstop : editor.undo.1 = .ok false := by rw [h.undo_of_nil happlied]
    have hbehind := h.behind
    rw [happlied] at hbehind
    rw [undoTexts, dif_neg (by rw [hstop]; decide), show editor.buffer.text = first from hbehind]
    rfl
  | cons entry older ih =>
    obtain ⟨next, hundo, htakes, hlinked⟩ := h.undo_eq happlied
    have hrest := ih hlinked rfl
    rw [undoTexts, dif_pos (by rw [hundo]), hundo, hrest, List.reverse_cons, List.map_append,
      List.map_singleton, hlinked.behind.leads.trail_concat, htakes.apply_eq,
      List.reverse_concat]

theorem Linked.undoAll (h : editor.Linked first s) :
    ∃ s', editor.undoAll.Linked first s' ∧ s'.applied = [] ∧
      s'.toHistory.operations = s.toHistory.operations := by
  induction happlied : s.applied generalizing editor s with
  | nil =>
    have hstop : editor.undo.1 = .ok false := by rw [h.undo_of_nil happlied]
    rw [Editor.undoAll, dif_neg (by rw [hstop]; decide)]
    exact ⟨s, h, happlied, rfl⟩
  | cons entry older ih =>
    obtain ⟨next, hundo, -, hlinked⟩ := h.undo_eq happlied
    obtain ⟨s', hback, hempty, hsame⟩ := ih hlinked rfl
    rw [Editor.undoAll, dif_pos (by rw [hundo]), hundo]
    refine ⟨s', hback, hempty, hsame.trans ?_⟩
    simp [History.operations, happlied]

theorem Linked.redoAll (h : editor.Linked first s) {text : Text}
    (hleads : Leads (s.undone.map (·.operation)) editor.buffer.text text) :
    ∃ s', editor.redoAll.Linked first s' ∧ s'.undone = [] ∧
      editor.redoAll.buffer.text = text := by
  induction hundone : s.undone generalizing editor s with
  | nil =>
    have hstop : editor.redo.1 = .ok false := by rw [h.redo_of_nil hundone]
    rw [hundone] at hleads
    rw [Editor.redoAll, dif_neg (by rw [hstop]; decide)]
    exact ⟨s, h, hundone, hleads⟩
  | cons entry later ih =>
    obtain ⟨next, hredo, htakes, hlinked⟩ := h.redo_eq hundone
    rw [hundone] at hleads
    obtain ⟨after, htakes', hlater⟩ := hleads
    rw [htakes'.unique htakes] at hlater
    rw [Editor.redoAll, dif_pos (by rw [hredo]), hredo]
    exact ih hlinked hlater rfl

/-- Undoing everything leads to the first text, and redoing everything back to the text that was
there, if nothing was undone before. -/
theorem Linked.undoAll_redoAll (h : editor.Linked first s) (hundone : s.undone = []) :
    editor.undoAll.undo.1 = .ok false ∧ editor.undoAll.redoAll.redo.1 = .ok false ∧
      editor.undoAll.buffer.text = first ∧
      editor.undoAll.redoAll.buffer.text = editor.buffer.text := by
  obtain ⟨back, hback, hempty, hsame⟩ := h.undoAll
  have hfirst := hback.behind
  rw [hempty] at hfirst
  have hops : back.undone.map (·.operation) = s.applied.reverse.map (·.operation) := by
    simpa [History.operations, hempty, hundone] using hsame
  have hleads := h.behind.leads
  rw [← hops, ← show editor.undoAll.buffer.text = first from hfirst] at hleads
  obtain ⟨forth, hforth, hnone, htext⟩ := hback.redoAll hleads
  refine ⟨?_, ?_, hfirst, htext⟩
  · rw [hback.undo_of_nil hempty]
  · rw [hforth.redo_of_nil hnone]

/-- Two editors that differ in coalescing only are given a text and the same changes, which come to
no more edits than the history has room for; a change that is refused is no edit. Both have made the
same edits, and come to the same text. The texts seen while undoing with coalescing are some of
those seen without it, the text now and the first text among them, and redoing leads back to the
text now. Each entry that was coalesced is a run of edits that followed one another. -/
theorem coalescing_skips_undo_points (settings : Settings) (path : String) (text : Text)
    (changes : List Change)
    (hroom : (Change.edits settings.tabReplacement text changes).length ≤
      settings.historyLimit) :
    let done := Change.edits settings.tabReplacement text changes
    let requests := changes.map Change.request
    let plain := worked { settings with coalesceEdits := false } path [] text requests
    let merged := worked { settings with coalesceEdits := true } path [] text requests
    Leads done text plain.buffer.text ∧ merged.buffer.text = plain.buffer.text ∧
      plain.undoTexts = (trail text done).reverse ∧
      merged.undoTexts.Sublist plain.undoTexts ∧
      merged.undoTexts.head? = some plain.buffer.text ∧
      merged.undoTexts.getLast? = some text ∧
      (∀ editor ∈ [plain, merged], editor.undoAll.undo.1 = .ok false ∧
        editor.undoAll.redoAll.redo.1 = .ok false ∧
        editor.undoAll.redoAll.buffer.text = plain.buffer.text) ∧
      ∃ runs : List (List Operation), runs.flatten = done ∧
        List.Forall₂ (fun run entry => Run run entry.operation) runs
          merged.history.entries := by
  intro done requests plain merged
  have hfits : ([] ++ done).length ≤ max settings.historyLimit 1 :=
    hroom.trans (Nat.le_max_left _ _)
  obtain ⟨s, hplain⟩ : ∃ s, plain.Written { settings with coalesceEdits := false } text done s :=
    (written_loadText _ path text).answers changes hfits
  obtain ⟨s', hmerged⟩ :
      ∃ s', merged.Written { settings with coalesceEdits := true } text done s' :=
    (written_loadText _ path text).answers changes hfits
  have htext : merged.buffer.text = plain.buffer.text := hmerged.leads.unique hplain.leads
  have hundo : plain.undoTexts = (trail text done).reverse := by
    rw [hplain.linked.undoTexts_eq, List.map_reverse, hplain.plain rfl, List.reverse_reverse]
  have hundo' := hmerged.linked.undoTexts_eq
  obtain ⟨runs, hruns, hstands⟩ := hmerged.grouped
  have hforward : List.Forall₂ (fun run entry => Stands run entry.operation) runs.reverse
      s'.applied.reverse := List.rel_reverse hstands
  have hentries : merged.history.entries = s'.applied.reverse := by
    rw [hmerged.linked.history_eq, Stacks.toHistory_entries, hmerged.undone, List.append_nil]
  refine ⟨hplain.leads, htext, hundo, ?_, ?_, ?_, ?_, runs.reverse, hruns,
    hentries ▸ hforward.imp fun _ _ => Stands.toRun⟩
  · rw [hundo, hundo', ← hruns, List.reverse_sublist]
    refine trail_sublist ?_ (hruns ▸ hmerged.leads)
    exact List.forall₂_map_right_iff.2 hforward
  · rw [← htext, undoTexts]
    split_ifs <;> rfl
  · rw [hundo', List.getLast?_reverse, head?_trail]
  · intro editor heditor
    rcases List.mem_pair.1 heditor with rfl | rfl
    · obtain ⟨hback, hforth, -, hsame⟩ := hplain.linked.undoAll_redoAll hplain.undone
      exact ⟨hback, hforth, hsame⟩
    · obtain ⟨hback, hforth, -, hsame⟩ := hmerged.linked.undoAll_redoAll hmerged.undone
      exact ⟨hback, hforth, hsame.trans htext⟩

/-- Two characters and a line break are typed one by one, then a tab and a character at once and one
more character, and the last two characters are deleted again. With coalescing these are three steps
of undoing. -/
theorem coalescing_skips_undo_points_typed :
    let changes : List Change := [.insert 0 ['a'], .insert 1 ['b'], .insert 2 ['\n'],
      .insert 3 ['\t', 'c'], .insert 6 ['d'], .remove 6 1, .remove 5 1]
    let requests := changes.map Change.request
    let plain := worked {} "untitled-1" [] [] requests
    let merged := worked { coalesceEdits := true } "untitled-1" [] [] requests
    plain.history.size = 7 ∧ merged.history.size = 3 ∧
      merged.undoTexts.Sublist plain.undoTexts := by
  intro changes requests plain merged
  refine ⟨by decide +kernel, by decide +kernel, ?_⟩
  obtain ⟨-, -, -, hsublist, -⟩ :=
    coalescing_skips_undo_points {} "untitled-1" [] changes (by decide +kernel)
  exact hsublist

end

end Editor

end LiveHighlight
