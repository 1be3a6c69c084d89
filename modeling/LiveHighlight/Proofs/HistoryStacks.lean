import Mathlib
import LiveHighlight.History

/-! The two stacks behind a history. Its entries are those of the applied stack, the oldest first,
and behind them those of the undone one, and it counts the applied ones. Every call does to the
entries and the count what it does to the stacks, and a merge puts one more character into an
operation. -/

namespace LiveHighlight

namespace Operation

/-- One more character in an operation. Typing goes on to the right, but not after a line break, and
deleting goes on to the left or to the right, but not over a line break. -/
inductive Extends : (op next merged : Operation) → Prop
  | typed (position : Nat) (text : Text) (c : Char) (hbreak : text.getLast? ≠ some '\n') :
    Extends ⟨.insert, position, text⟩ ⟨.insert, position + text.length, [c]⟩
      ⟨.insert, position, text ++ [c]⟩
  | deletedLeft (position : Nat) (text : Text) (c : Char) (hbreak : c ≠ '\n') :
    Extends ⟨.remove, position + 1, text⟩ ⟨.remove, position, [c]⟩ ⟨.remove, position, c :: text⟩
  | deletedRight (position : Nat) (text : Text) (c : Char) (hbreak : c ≠ '\n') :
    Extends ⟨.remove, position, text⟩ ⟨.remove, position, [c]⟩ ⟨.remove, position, text ++ [c]⟩

variable {op next merged : Operation}

theorem extends_of_merge? (h : op.merge? next = some merged) : op.Extends next merged := by
  obtain ⟨kind, position, text⟩ := op
  obtain ⟨kind', position', text'⟩ := next
  unfold merge? at h
  split at h
  · cases h
  next hone =>
  obtain ⟨c, rfl⟩ := List.length_eq_one_iff.1 (not_not.1 hone)
  split at h
  · next hkind hkind' =>
    obtain ⟨rfl, rfl⟩ : kind = .insert ∧ kind' = .insert := ⟨hkind, hkind'⟩
    split at h
    · cases h
    · next hgoes =>
      rw [not_or, ne_eq, not_not] at hgoes
      obtain ⟨hbreak, rfl⟩ : _ ∧ position' = position + text.length := hgoes
      cases h
      exact .typed position text c hbreak
  · next hkind hkind' =>
    obtain ⟨rfl, rfl⟩ : kind = .remove ∧ kind' = .remove := ⟨hkind, hkind'⟩
    split at h
    · cases h
    next hbreak =>
    have hother : c ≠ '\n' := fun hc => hbreak (by rw [hc])
    split at h
    · next hleft =>
      obtain rfl : position' + 1 = position := hleft
      cases h
      exact .deletedLeft position' text c hother
    · split at h
      · next hright =>
        obtain rfl : position' = position := hright
        cases h
        exact .deletedRight position' text c hother
      · cases h
  · cases h

theorem merge?_eq_some_iff : op.merge? next = some merged ↔ op.Extends next merged := by
  refine ⟨extends_of_merge?, fun h => ?_⟩
  cases h with
  | typed position text c hbreak => simp [merge?, stop, hbreak]
  | deletedLeft position text c hbreak => simp [merge?, hbreak]
  | deletedRight position text c hbreak => simp [merge?, hbreak]

/-- Merging where positions and lengths are words and their sums wrap around. -/
def wordMerge? (op next : Operation) : Option Operation :=
  if next.text.length ≠ 1 then none
  else
    match op.kind, next.kind with
    | .insert, .insert =>
      if op.text.getLast? = some '\n' ∨ UInt64.ofNat next.position ≠
          UInt64.ofNat op.position + UInt64.ofNat op.text.length then none
      else some { op with text := op.text ++ next.text }
    | .remove, .remove =>
      if next.text = ['\n'] then none
      else if UInt64.ofNat next.position + 1 = UInt64.ofNat op.position then
        some { op with position := next.position, text := next.text ++ op.text }
      else if UInt64.ofNat next.position = UInt64.ofNat op.position then
        some { op with text := op.text ++ next.text }
      else none
    | _, _ => none

/-- An operation of words: its position is one, and the end of what it puts in is one. -/
structure InWords (op : Operation) : Prop where
  position_le : op.position ≤ maxOffset
  stop_le : op.kind = .insert → op.stop ≤ maxOffset

theorem inWords_of_stop_le (h : op.stop ≤ maxOffset) : op.InWords :=
  ⟨(Nat.le_add_right _ _).trans h, fun _ => h⟩

theorem ofNat_word_inj {a b : Nat} (ha : a ≤ maxOffset) (hb : b ≤ maxOffset) :
    UInt64.ofNat a = UInt64.ofNat b ↔ a = b := by
  have htoNat {n : Nat} (hn : n ≤ maxOffset) : (UInt64.ofNat n).toNat = n :=
    UInt64.toNat_ofNat_of_lt' (Nat.lt_succ_of_le hn)
  rw [← UInt64.toNat_inj, htoNat ha, htoNat hb]

/-- No sum wraps around where the ends of the operations are words. -/
theorem InWords.wordMerge?_eq (h : op.InWords) (hnext : next.stop ≤ maxOffset) :
    op.wordMerge? next = op.merge? next := by
  have hposition := (inWords_of_stop_le hnext).position_le
  unfold wordMerge? merge?
  by_cases hone : next.text.length = 1
  swap
  · rw [if_pos hone, if_pos hone]
  rw [if_neg (not_not.2 hone), if_neg (not_not.2 hone)]
  cases hkind : op.kind with
  | insert =>
    have hstop : UInt64.ofNat next.position =
        UInt64.ofNat op.position + UInt64.ofNat op.text.length ↔ next.position = op.stop := by
      rw [← UInt64.ofNat_add]
      exact ofNat_word_inj hposition (h.stop_le hkind)
    cases next.kind with
    | insert => exact if_congr (or_congr_right (not_congr hstop)) rfl rfl
    | remove => rfl
  | remove =>
    have hleft : UInt64.ofNat next.position + 1 = UInt64.ofNat op.position ↔
        next.position + 1 = op.position := by
      rw [stop, hone] at hnext
      rw [show (1 : UInt64) = UInt64.ofNat 1 from rfl, ← UInt64.ofNat_add]
      exact ofNat_word_inj hnext h.position_le
    cases next.kind with
    | insert => rfl
    | remove =>
      dsimp only
      rw [if_congr hleft rfl rfl, if_congr (ofNat_word_inj hposition h.position_le) rfl rfl]

/-- An operation that grows stays one of words. -/
theorem InWords.extends (h : op.InWords) (hnext : next.stop ≤ maxOffset)
    (hextends : op.Extends next merged) : merged.InWords := by
  cases hextends with
  | typed position text c hbreak =>
    refine ⟨h.position_le, fun _ => ?_⟩
    rw [stop, List.length_append, ← Nat.add_assoc]
    exact hnext
  | deletedLeft position text c hbreak => exact ⟨(inWords_of_stop_le hnext).position_le, nofun⟩
  | deletedRight position text c hbreak => exact ⟨h.position_le, nofun⟩

end Operation

namespace History

/-- What can be asked of a history. -/
inductive Call where
  | record (op : Operation)
  | commitUndo
  | commitRedo
  | clear
  | setRecording (on : Bool)
  | setCoalescing (on : Bool)
  deriving DecidableEq, Repr

def perform (history : History) : Call → History
  | .record op => (history.record op).2
  | .commitUndo => history.commitUndo
  | .commitRedo => history.commitRedo
  | .clear => history.clear
  | .setRecording on => { history with recording := on }
  | .setCoalescing on => { history with coalescing := on }

def after (history : History) : List Call → History
  | [] => history
  | call :: rest => (history.perform call).after rest

/-- The operations of all entries, the oldest first. -/
def operations (history : History) : List Operation := history.entries.map (·.operation)

end History

/-- Applied entries with the last one first, and undone entries with the next one to redo first. -/
structure Stacks where
  applied : List HistoryEntry := []
  undone : List HistoryEntry := []
  limit : Nat
  recording : Bool := true
  coalescing : Bool := false
  deriving DecidableEq, Repr

namespace Stacks

def ofLimit (limit : Nat) : Stacks := { limit := max limit 1 }

/-- The top of the applied stack with an operation taken in, where the two belong together. -/
def coalesce? (s : Stacks) (op : Operation) : Option HistoryEntry :=
  match s.applied with
  | [] => none
  | entry :: _ =>
    if s.coalescing ∧ ¬ entry.finished then
      (entry.operation.merge? op).map fun merged => { entry with operation := merged }
    else none

/-- Puts an entry on the applied stack. Over the limit, the one at its bottom goes. -/
def push (s : Stacks) (entry : HistoryEntry) : List HistoryEntry :=
  let applied := entry :: s.applied
  if s.limit < applied.length then applied.dropLast else applied

def record (s : Stacks) (op : Operation) : Bool × Stacks :=
  if s.recording then
    let applied :=
      match s.coalesce? op with
      | some entry => entry :: s.applied.tail
      | none => s.push ⟨op, false⟩
    (true, { s with applied := applied, undone := [] })
  else (false, s)

def commitUndo (s : Stacks) : Stacks :=
  match s.applied with
  | [] => s
  | entry :: older =>
    { s with
      applied := older
      undone := { entry with finished := true } :: s.undone }

def commitRedo (s : Stacks) : Stacks :=
  match s.undone with
  | [] => s
  | entry :: later =>
    { s with
      applied := { entry with finished := true } :: s.applied
      undone := later }

def perform (s : Stacks) : History.Call → Stacks
  | .record op => (s.record op).2
  | .commitUndo => s.commitUndo
  | .commitRedo => s.commitRedo
  | .clear => { s with applied := [], undone := [] }
  | .setRecording on => { s with recording := on }
  | .setCoalescing on => { s with coalescing := on }

def after (s : Stacks) : List History.Call → Stacks
  | [] => s
  | call :: rest => (s.perform call).after rest

/-- The two stacks end to end, bottom first, with the height of the applied one. -/
def toHistory (s : Stacks) : History where
  entries := s.applied.reverse ++ s.undone
  applied := s.applied.length
  limit := s.limit
  recording := s.recording
  coalescing := s.coalescing

variable (s : Stacks)

@[simp]
theorem toHistory_entries : s.toHistory.entries = s.applied.reverse ++ s.undone := rfl

@[simp]
theorem toHistory_applied : s.toHistory.applied = s.applied.length := rfl

@[simp]
theorem toHistory_limit : s.toHistory.limit = s.limit := rfl

@[simp]
theorem toHistory_recording : s.toHistory.recording = s.recording := rfl

@[simp]
theorem toHistory_size :
    s.toHistory.size = s.applied.length + s.undone.length := by
  simp [History.size]

theorem take_toHistory :
    s.toHistory.entries.take s.toHistory.applied = s.applied.reverse := by
  simp

theorem coalesce?_toHistory (op : Operation) :
    s.toHistory.coalesce? s.applied.reverse op = s.coalesce? op := by
  unfold History.coalesce? coalesce?
  rw [List.getLast?_reverse]
  cases s.applied with
  | nil => rfl
  | cons entry older => rfl

/-- Cutting off what was undone, growing the last entry or adding one and removing the first one is
what recording does to the stacks. -/
theorem record_toHistory (op : Operation) :
    s.toHistory.record op = ((s.record op).1, (s.record op).2.toHistory) := by
  unfold History.record record
  dsimp only
  rw [take_toHistory, coalesce?_toHistory, toHistory_recording]
  split_ifs
  · cases hgrown : s.coalesce? op with
    | some entry =>
      cases happlied : s.applied with
      | nil => simp [coalesce?, happlied] at hgrown
      | cons last older => simp [toHistory, happlied]
    | none =>
      dsimp only [History.push, push]
      rw [List.length_append, List.length_reverse, List.length_singleton, toHistory_limit,
        List.length_cons]
      split_ifs with hfull
      · have holdest : (s.applied.reverse ++ [HistoryEntry.mk op false]).tail =
            (HistoryEntry.mk op false :: s.applied).dropLast.reverse := by
          rw [← List.reverse_cons, List.tail_reverse]
        simp [toHistory, holdest]
      · simp [toHistory]
  · rfl

theorem modify_reverse_append {α : Type} (f : α → α) (front : List α) (a : α) (rest : List α) :
    (front.reverse ++ a :: rest).modify front.length f = front.reverse ++ f a :: rest := by
  have hget : (front.reverse ++ a :: rest)[front.length]? = some a := by simp
  rw [List.modify_eq_set_getElem?, hget]
  simp

theorem position_toHistory :
    s.toHistory.position =
      match s.applied with
      | [] => none
      | _ :: older => some older.length := by
  unfold History.position
  cases happlied : s.applied <;> simp [happlied]

theorem commitUndo_toHistory : s.toHistory.commitUndo = s.commitUndo.toHistory := by
  unfold History.commitUndo commitUndo
  rw [position_toHistory]
  cases happlied : s.applied with
  | nil => rfl
  | cons entry older =>
    have hentries : s.toHistory.entries = older.reverse ++ entry :: s.undone := by simp [happlied]
    dsimp only [History.finish]
    rw [hentries, modify_reverse_append]
    rfl

theorem commitRedo_toHistory : s.toHistory.commitRedo = s.commitRedo.toHistory := by
  unfold History.commitRedo commitRedo
  cases hundone : s.undone with
  | nil =>
    rw [if_neg (by simp [hundone])]
  | cons entry later =>
    rw [toHistory_size, hundone, if_pos (by simp), History.finish, toHistory_entries, hundone,
      toHistory_applied, modify_reverse_append]
    simp [toHistory]

theorem commitUndo_operations : s.commitUndo.toHistory.operations = s.toHistory.operations := by
  unfold commitUndo
  cases happlied : s.applied with
  | nil => rfl
  | cons entry older => simp [History.operations, happlied]

theorem commitRedo_operations : s.commitRedo.toHistory.operations = s.toHistory.operations := by
  unfold commitRedo
  cases hundone : s.undone with
  | nil => rfl
  | cons entry later => simp [History.operations, hundone]

theorem perform_toHistory (call : History.Call) :
    s.toHistory.perform call = (s.perform call).toHistory := by
  cases call with
  | record op => exact congrArg Prod.snd (s.record_toHistory op)
  | commitUndo => exact s.commitUndo_toHistory
  | commitRedo => exact s.commitRedo_toHistory
  | clear => rfl
  | setRecording on => rfl
  | setCoalescing on => rfl

/-- Every sequence of calls does to the entries and their count what it does to the stacks. -/
theorem after_toHistory (calls : List History.Call) :
    s.toHistory.after calls = (s.after calls).toHistory := by
  induction calls generalizing s with
  | nil => rfl
  | cons call rest ih => rw [History.after, after, perform_toHistory, ih]

section

variable {s} {op : Operation}

theorem canRedo_toHistory : s.toHistory.canRedo = !s.undone.isEmpty := by
  unfold History.canRedo
  cases hundone : s.undone <;> simp [hundone]

theorem undoOperation_toHistory :
    s.toHistory.undoOperation = s.applied.head?.map (·.operation.inverse) := by
  unfold History.undoOperation
  rw [position_toHistory]
  cases happlied : s.applied <;> simp [happlied]

theorem redoOperation_toHistory : s.toHistory.redoOperation = s.undone.head?.map (·.operation) := by
  unfold History.redoOperation
  cases hundone : s.undone <;> simp [hundone]

theorem coalesce?_eq_some {grown : HistoryEntry} (h : s.coalesce? op = some grown) :
    ∃ entry older merged, s.applied = entry :: older ∧ s.coalescing = true ∧
      entry.finished = false ∧ entry.operation.Extends op merged ∧
      grown = { entry with operation := merged } := by
  unfold coalesce? at h
  cases happlied : s.applied with
  | nil =>
    rw [happlied] at h
    cases h
  | cons entry older =>
    rw [happlied] at h
    dsimp only at h
    split_ifs at h with hopen
    obtain ⟨merged, hmerged, rfl⟩ := Option.map_eq_some_iff.1 h
    exact ⟨entry, older, merged, rfl, hopen.1, by simpa using hopen.2,
      Operation.merge?_eq_some_iff.1 hmerged, rfl⟩

end

end Stacks
end LiveHighlight
