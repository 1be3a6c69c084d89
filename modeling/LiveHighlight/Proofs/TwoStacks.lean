import Mathlib
import LiveHighlight.Proofs.HistoryStacks

/-! A history as two stacks of bounded size, whatever is asked of it and in whatever order.
Recording makes the top of the applied stack grow or puts one entry on it, undoing and redoing carry
the top of one stack over to the other. -/

namespace LiveHighlight

namespace Stacks

variable (s : Stacks)

/-- An operation goes on with the top of the applied stack, which was never undone or redone. -/
def GoesOn (op : Operation) : Prop :=
  s.coalescing = true ∧ ∃ entry older merged, s.applied = entry :: older ∧
    entry.finished = false ∧ entry.operation.Extends op merged

/-- What recording an operation makes of the stacks. The top of the applied one grows by a character
if the operation goes on with it. Otherwise one entry is put on it, and the one at the bottom goes
if there is no room. What was undone is forgotten. -/
inductive Recorded (op : Operation) : Stacks → Prop
  | grown {entry : HistoryEntry} {older : List HistoryEntry} {merged : Operation}
    (happlied : s.applied = entry :: older) (hcoalescing : s.coalescing = true)
    (hfinished : entry.finished = false) (hextends : entry.operation.Extends op merged) :
    Recorded op { s with applied := { entry with operation := merged } :: older, undone := [] }
  | added (hother : ¬ s.GoesOn op) (hroom : s.applied.length < s.limit) :
    Recorded op { s with applied := ⟨op, false⟩ :: s.applied, undone := [] }
  | pushedOut {kept : List HistoryEntry} {oldest : HistoryEntry} (hother : ¬ s.GoesOn op)
    (happlied : s.applied = kept ++ [oldest]) (hfull : s.limit < s.applied.length + 1) :
    Recorded op { s with applied := ⟨op, false⟩ :: kept, undone := [] }

/-- How often each entry has been undone or redone, in the order of the stacks. -/
structure Moves where
  applied : List Nat := []
  undone : List Nat := []
  deriving DecidableEq, Repr

/-- Counts on while a call is made. A new entry starts at zero, and one that grows keeps its
count. -/
def Moves.next (moves : Moves) (s : Stacks) : History.Call → Moves
  | .record op =>
    if s.recording then
      match s.coalesce? op with
      | some _ => { moves with undone := [] }
      | none => { applied := (0 :: moves.applied).take s.limit }
    else moves
  | .commitUndo =>
    match moves.applied with
    | [] => moves
    | n :: older => ⟨older, (n + 1) :: moves.undone⟩
  | .commitRedo =>
    match moves.undone with
    | [] => moves
    | n :: later => ⟨(n + 1) :: moves.applied, later⟩
  | .clear => {}
  | .setRecording _ | .setCoalescing _ => moves

def movesAfter (s : Stacks) (moves : Moves) : List History.Call → Moves
  | [] => moves
  | call :: rest => (s.perform call).movesAfter (moves.next s call) rest

variable {s} {op : Operation}

theorem coalesce?_eq_none (h : s.coalesce? op = none) : ¬ s.GoesOn op := by
  rintro ⟨hcoalescing, entry, older, merged, happlied, hfinished, hextends⟩
  have hmerge := Operation.merge?_eq_some_iff.2 hextends
  simp [coalesce?, happlied, hcoalescing, hfinished, hmerge] at h

theorem record_recorded (hrecording : s.recording = true) (hlimit : 0 < s.limit)
    (op : Operation) : s.Recorded op (s.record op).2 := by
  rw [record, if_pos hrecording]
  cases hgrown : s.coalesce? op with
  | some grown =>
    obtain ⟨entry, older, merged, happlied, hcoalescing, hfinished, hextends, rfl⟩ :=
      coalesce?_eq_some hgrown
    dsimp only
    rw [happlied, List.tail_cons]
    exact .grown happlied hcoalescing hfinished hextends
  | none =>
    have hother := coalesce?_eq_none hgrown
    dsimp only [push]
    split_ifs with hfull
    · rw [List.length_cons] at hfull
      have hne : s.applied ≠ [] := List.ne_nil_of_length_pos (by omega)
      obtain ⟨kept, oldest, happlied⟩ := (List.eq_nil_or_concat' _).resolve_left hne
      rw [happlied, ← List.cons_append, List.dropLast_concat]
      exact .pushedOut hother happlied hfull
    · exact .added hother (by rw [List.length_cons] at hfull; omega)

theorem Recorded.canRedo {next : Stacks} (h : s.Recorded op next) :
    next.toHistory.canRedo = false := by
  rw [canRedo_toHistory]
  cases h <;> rfl

theorem push_subset (s : Stacks) (entry : HistoryEntry) : s.push entry ⊆ entry :: s.applied := by
  unfold push
  dsimp only
  split_ifs
  · exact List.dropLast_subset _
  · exact List.Subset.refl _

theorem push_eq_take {entry : HistoryEntry} (h : s.applied.length ≤ s.limit) :
    s.push entry = (entry :: s.applied).take s.limit := by
  unfold push
  dsimp only
  split_ifs with hfull
  · rw [List.dropLast_eq_take]
    rw [List.length_cons] at hfull
    congr 1
    rw [List.length_cons]
    omega
  · exact (List.take_of_length_le (Nat.not_lt.1 hfull)).symm

/-- Both stacks together fit the limit, and the marks of the entries tell which of them have been
undone or redone. What is undone has been so. -/
structure Kept (limit : Nat) (s : Stacks) (moves : Moves) : Prop where
  limit_pos : 0 < limit
  limit_eq : s.limit = limit
  size_le : s.applied.length + s.undone.length ≤ limit
  applied : s.applied.map (·.finished) = moves.applied.map fun n => decide (0 < n)
  undone : s.undone.map (·.finished) = moves.undone.map fun n => decide (0 < n)
  moved : ∀ n ∈ moves.undone, 0 < n

section

variable {limit : Nat} {moves : Moves}

theorem kept_ofLimit (limit : Nat) : Kept (max limit 1) (ofLimit limit) {} :=
  ⟨by omega, rfl, by simp [ofLimit], rfl, rfl, by simp⟩

theorem Kept.record (h : Kept limit s moves) (op : Operation) :
    Kept limit (s.record op).2 (moves.next s (.record op)) := by
  obtain ⟨hpos, rfl, hsize, happlied, hundone, hmoved⟩ := h
  rw [Stacks.record, Moves.next]
  split_ifs with hrecording
  · cases hgrown : s.coalesce? op with
    | some grown =>
      obtain ⟨entry, older, merged, hentry, -, -, -, rfl⟩ := coalesce?_eq_some hgrown
      rw [hentry] at happlied hsize ⊢
      refine ⟨hpos, rfl, ?_, happlied, rfl, by simp⟩
      simp only [List.length_cons, List.tail_cons, List.length_nil] at hsize ⊢
      omega
    | none =>
      dsimp only
      rw [push_eq_take (by omega)]
      refine ⟨hpos, rfl, by simp, ?_, rfl, by simp⟩
      rw [List.map_take, List.map_take, List.map_cons, List.map_cons, happlied]
      rfl
  · exact ⟨hpos, rfl, hsize, happlied, hundone, hmoved⟩

theorem Kept.commitUndo (h : Kept limit s moves) :
    Kept limit s.commitUndo (moves.next s .commitUndo) := by
  obtain ⟨hpos, rfl, hsize, happlied, hundone, hmoved⟩ := h
  unfold Stacks.commitUndo Moves.next
  cases hentries : s.applied with
  | nil =>
    rw [hentries, List.map_nil, eq_comm, List.map_eq_nil_iff] at happlied
    simp only [happlied]
    exact ⟨hpos, rfl, hsize, by simp [hentries, happlied], hundone, hmoved⟩
  | cons entry older =>
    rw [hentries] at happlied hsize
    obtain ⟨n, counts, hcounts, hentry, holder⟩ := List.map_eq_cons_iff.1 happlied.symm
    simp only [hcounts]
    refine ⟨hpos, rfl, ?_, holder.symm, by simp [hundone], by simpa using hmoved⟩
    simp only [List.length_cons] at hsize ⊢
    omega

theorem Kept.commitRedo (h : Kept limit s moves) :
    Kept limit s.commitRedo (moves.next s .commitRedo) := by
  obtain ⟨hpos, rfl, hsize, happlied, hundone, hmoved⟩ := h
  unfold Stacks.commitRedo Moves.next
  cases hentries : s.undone with
  | nil =>
    rw [hentries, List.map_nil, eq_comm, List.map_eq_nil_iff] at hundone
    simp only [hundone]
    exact ⟨hpos, rfl, hsize, happlied, by simp [hentries, hundone], by simp [hundone]⟩
  | cons entry later =>
    rw [hentries] at hundone hsize
    obtain ⟨n, counts, hcounts, hentry, hlater⟩ := List.map_eq_cons_iff.1 hundone.symm
    simp only [hcounts]
    refine ⟨hpos, rfl, ?_, by simp [happlied], hlater.symm, fun m hm => ?_⟩
    · simp only [List.length_cons] at hsize ⊢
      omega
    · exact hmoved m (hcounts ▸ List.mem_cons_of_mem _ hm)

theorem Kept.perform (h : Kept limit s moves) (call : History.Call) :
    Kept limit (s.perform call) (moves.next s call) := by
  cases call with
  | record op => exact h.record op
  | commitUndo => exact h.commitUndo
  | commitRedo => exact h.commitRedo
  | clear => exact ⟨h.limit_pos, h.limit_eq, Nat.zero_le _, rfl, rfl, by simp [Moves.next]⟩
  | setRecording on => exact ⟨h.limit_pos, h.limit_eq, h.size_le, h.applied, h.undone, h.moved⟩
  | setCoalescing on => exact ⟨h.limit_pos, h.limit_eq, h.size_le, h.applied, h.undone, h.moved⟩

theorem Kept.after (h : Kept limit s moves) (calls : List History.Call) :
    Kept limit (s.after calls) (s.movesAfter moves calls) := by
  induction calls generalizing s moves with
  | nil => exact h
  | cons call rest ih => exact ih (h.perform call)

theorem Kept.marks (h : Kept limit s moves) :
    s.toHistory.entries.map (·.finished) =
      (moves.applied.reverse ++ moves.undone).map fun n => decide (0 < n) := by
  rw [toHistory_entries, List.map_append, List.map_append, List.map_reverse, List.map_reverse,
    h.applied, h.undone]

theorem Kept.finished (h : Kept limit s moves) {entry : HistoryEntry}
    (hentry : entry ∈ s.undone) : entry.finished = true := by
  have hmem : entry.finished ∈ s.undone.map (·.finished) := List.mem_map_of_mem hentry
  rw [h.undone] at hmem
  obtain ⟨n, hn, hfinished⟩ := List.mem_map.1 hmem
  rw [← hfinished]
  exact decide_eq_true (h.moved n hn)

end

/-- All entries are operations of words. -/
def InWords (s : Stacks) : Prop := ∀ op ∈ s.toHistory.operations, op.InWords

theorem InWords.record (h : s.InWords) (hop : op.stop ≤ maxOffset) :
    (s.record op).2.InWords := by
  have happlied : ∀ entry ∈ s.applied, entry.operation.InWords := by
    intro entry hentry
    apply h
    rw [History.operations, toHistory_entries]
    exact List.mem_map_of_mem (List.mem_append_left _ (List.mem_reverse.2 hentry))
  -- entries that are still there are as they were, and the top is new or has grown
  have hall : ∀ entry ∈ (s.record op).2.applied, entry.operation.InWords := by
    unfold Stacks.record
    split_ifs
    · cases hgrown : s.coalesce? op with
      | some grown =>
        obtain ⟨last, older, merged, hlast, -, -, hextends, rfl⟩ := coalesce?_eq_some hgrown
        rw [hlast] at happlied ⊢
        obtain ⟨htop, holder⟩ := List.forall_mem_cons.1 happlied
        exact List.forall_mem_cons.2 ⟨htop.extends hop hextends, holder⟩
      | none =>
        intro entry hentry
        rcases List.mem_cons.1 (s.push_subset _ hentry) with rfl | hentry
        · exact Operation.inWords_of_stop_le hop
        · exact happlied entry hentry
    · exact happlied
  unfold Stacks.record at hall ⊢
  split_ifs at hall ⊢
  · intro other hother
    obtain ⟨entry, hentry, rfl⟩ := List.mem_map.1 hother
    exact hall entry (by simpa using hentry)
  · exact h

/-- A call that records an operation of words, or none, leaves operations of words. -/
theorem InWords.perform (h : s.InWords) {call : History.Call}
    (hcall : ∀ op, call = .record op → op.stop ≤ maxOffset) : (s.perform call).InWords := by
  cases call with
  | record op => exact h.record (hcall op rfl)
  | commitUndo => exact fun op hop => h op (s.commitUndo_operations ▸ hop)
  | commitRedo => exact fun op hop => h op (s.commitRedo_operations ▸ hop)
  | clear => exact nofun
  | setRecording on => exact h
  | setCoalescing on => exact h

theorem InWords.after (h : s.InWords) {calls : List History.Call}
    (hcalls : ∀ op, .record op ∈ calls → op.stop ≤ maxOffset) : (s.after calls).InWords := by
  induction calls generalizing s with
  | nil => exact h
  | cons call rest ih =>
    apply ih
    · exact h.perform fun op hop => hcalls op (hop ▸ List.mem_cons_self)
    · exact fun op hop => hcalls op (List.mem_cons_of_mem _ hop)

/-- Undoing and redoing an entry changes nothing but its mark. -/
theorem commitUndo_commitRedo (h : s.toHistory.canUndo = true) :
    s.toHistory.commitUndo.commitRedo.position = s.toHistory.position ∧
      s.toHistory.commitUndo.commitRedo.operations = s.toHistory.operations ∧
      ∃ op, s.toHistory.commitUndo.redoOperation = some op ∧
        s.toHistory.undoOperation = some op.inverse := by
  rw [commitUndo_toHistory, commitRedo_toHistory, commitRedo_operations, commitUndo_operations]
  obtain ⟨applied, undone, limit, recording, coalescing⟩ := s
  cases applied with
  | nil => cases h
  | cons entry older =>
    rw [redoOperation_toHistory, undoOperation_toHistory, position_toHistory, position_toHistory]
    exact ⟨rfl, rfl, _, rfl, rfl⟩

theorem commitRedo_commitUndo (h : s.toHistory.canRedo = true) :
    s.toHistory.commitRedo.commitUndo.position = s.toHistory.position ∧
      s.toHistory.commitRedo.commitUndo.operations = s.toHistory.operations ∧
      ∃ op, s.toHistory.redoOperation = some op ∧
        s.toHistory.commitRedo.undoOperation = some op.inverse := by
  rw [commitRedo_toHistory, commitUndo_toHistory, commitUndo_operations, commitRedo_operations]
  rw [canRedo_toHistory] at h
  obtain ⟨applied, undone, limit, recording, coalescing⟩ := s
  cases undone with
  | nil => cases h
  | cons entry later =>
    rw [redoOperation_toHistory, undoOperation_toHistory, position_toHistory, position_toHistory]
    exact ⟨rfl, rfl, _, rfl, rfl⟩

end Stacks

/-- A history is a machine of two stacks under every sequence of calls: its entries are those of the
applied stack and behind them those of the undone one, and it counts the applied ones. It never
holds more than its limit, the marks of its entries tell which ones have been undone or redone, and
what is undone is marked. With recording off nothing is recorded. With recording on nothing is left
to redo, and the last entry grows by a character that goes on with it, if it was never undone or
redone and coalescing is on; otherwise one entry is put on top. Undoing and redoing bring each other
back. As long as the operations that are recorded end at words, no sum of a merge leaves the words.
-/
theorem History.calls_keep_two_stacks (limit : Nat) (calls : List Call) :
    let history := (ofLimit limit).after calls
    let s := (Stacks.ofLimit limit).after calls
    let moves := (Stacks.ofLimit limit).movesAfter {} calls
    history = s.toHistory ∧
      history.limit = max limit 1 ∧ history.applied ≤ history.size ∧
      history.size ≤ max limit 1 ∧
      history.entries.map (·.finished) =
        (moves.applied.reverse ++ moves.undone).map (fun n => decide (0 < n)) ∧
      (∀ entry ∈ history.entries.drop history.applied, entry.finished = true) ∧
      (history.recording = false → ∀ op, history.record op = (false, history)) ∧
      (history.recording = true → ∀ op, ∃ next, history.record op = (true, next.toHistory) ∧
        next.toHistory.canRedo = false ∧ s.Recorded op next) ∧
      (history.canUndo = true →
        history.commitUndo.commitRedo.position = history.position ∧
        history.commitUndo.commitRedo.operations = history.operations ∧
        ∃ op, history.commitUndo.redoOperation = some op ∧
          history.undoOperation = some op.inverse) ∧
      (history.canRedo = true →
        history.commitRedo.commitUndo.position = history.position ∧
        history.commitRedo.commitUndo.operations = history.operations ∧
        ∃ op, history.redoOperation = some op ∧
          history.commitRedo.undoOperation = some op.inverse) ∧
      ((∀ op, .record op ∈ calls → op.stop ≤ maxOffset) → ∀ entry ∈ history.entries,
        ∀ op : Operation, op.stop ≤ maxOffset →
          entry.operation.wordMerge? op = entry.operation.merge? op) := by
  intro history s moves
  have hhistory : history = s.toHistory := (Stacks.ofLimit limit).after_toHistory calls
  have hkept : s.Kept (max limit 1) moves := (Stacks.kept_ofLimit limit).after calls
  have hlimit : 0 < s.limit := hkept.limit_eq ▸ hkept.limit_pos
  rw [hhistory]
  refine ⟨rfl, hkept.limit_eq, ?_, ?_, hkept.marks, fun entry hentry => ?_, fun hoff op => ?_,
    fun hon op => ?_, Stacks.commitUndo_commitRedo, Stacks.commitRedo_commitUndo,
    fun hcalls entry hentry op hop => ?_⟩
  · rw [Stacks.toHistory_size]
    exact Nat.le_add_right _ _
  · rw [Stacks.toHistory_size]
    exact hkept.size_le
  · refine hkept.finished ?_
    simpa using hentry
  · rw [record, if_neg (by simp [show s.recording = false from hoff])]
  · have hrecording : s.recording = true := hon
    have hrecorded := Stacks.record_recorded hrecording hlimit op
    refine ⟨(s.record op).2, ?_, hrecorded.canRedo, hrecorded⟩
    rw [Stacks.record_toHistory, Stacks.record, if_pos hrecording]
  · have hwords : s.InWords := Stacks.InWords.after (s := .ofLimit limit) nofun hcalls
    exact (hwords _ (List.mem_map_of_mem hentry)).wordMerge?_eq hop

end LiveHighlight
