import LiveHighlight.Buffer

/-! Undo and redo. The history holds operations, not texts: a caller takes the operation to replay,
applies it, and only then moves the count of applied operations. -/

namespace LiveHighlight

/-- An edit with the text it put in or took out. -/
structure Operation where
  kind : EditKind
  position : Nat
  text : Text
  deriving DecidableEq, Repr

namespace Operation

def inverse (op : Operation) : Operation :=
  { op with kind := match op.kind with | .insert => .remove | .remove => .insert }

/-- The offset just past the text of the operation. -/
def stop (op : Operation) : Nat := op.position + op.text.length

def ofChange (change : BufferChange) : Operation :=
  ⟨change.edit.kind, change.edit.offset, change.text⟩

/-- One operation in place of two: `next` is one character that goes on with what `op` did. Typing
goes on to the right and not after a line break; deleting goes on to either side and not over a line
break. -/
def merge? (op next : Operation) : Option Operation :=
  if next.text.length ≠ 1 then none
  else
    match op.kind, next.kind with
    | .insert, .insert =>
      if op.text.getLast? = some '\n' ∨ next.position ≠ op.stop then none
      else some { op with text := op.text ++ next.text }
    | .remove, .remove =>
      if next.text = ['\n'] then none
      else if next.position + 1 = op.position then
        some { op with position := next.position, text := next.text ++ op.text }
      else if next.position = op.position then some { op with text := op.text ++ next.text }
      else none
    | _, _ => none

end Operation

/-- A finished entry was undone or redone once and takes in no more operations. -/
structure HistoryEntry where
  operation : Operation
  finished : Bool := false
  deriving DecidableEq, Repr

/-- Entries in the order in which they were made, and how many of them are applied. The others have
been undone. -/
structure History where
  entries : List HistoryEntry := []
  applied : Nat := 0
  limit : Nat
  recording : Bool := true
  coalescing : Bool := false
  deriving DecidableEq, Repr

namespace History

/-- An empty history that keeps at least one entry. -/
def ofLimit (limit : Nat) : History := { limit := max limit 1 }

def defaultLimit : Nat := 1000

def size (history : History) : Nat := history.entries.length

/-- The last of some entries with an operation taken in, where the two belong together. -/
def coalesce? (history : History) (entries : List HistoryEntry) (op : Operation) :
    Option HistoryEntry :=
  match entries.getLast? with
  | none => none
  | some last =>
    if history.coalescing ∧ ¬ last.finished then
      (last.operation.merge? op).map fun merged => { last with operation := merged }
    else none

/-- Adds an entry behind all others. Over the limit, the oldest entry goes. -/
def push (history : History) (entry : HistoryEntry) : History :=
  let entries := history.entries ++ [entry]
  let applied := history.applied + 1
  if history.limit < entries.length then
    { history with entries := entries.tail, applied := applied - 1 }
  else { history with entries := entries, applied := applied }

/-- Records an operation and forgets what was undone. The answer tells whether it was recorded. -/
def record (history : History) (op : Operation) : Bool × History :=
  if history.recording then
    let kept := history.entries.take history.applied
    match history.coalesce? kept op with
    | some entry => (true, { history with entries := kept.dropLast ++ [entry] })
    | none => (true, { history with entries := kept }.push ⟨op, false⟩)
  else (false, history)

def canUndo (history : History) : Bool := 0 < history.applied

def canRedo (history : History) : Bool := history.applied < history.size

/-- The index of the last applied entry. -/
def position (history : History) : Option Nat :=
  if history.applied = 0 then none else some (history.applied - 1)

def undoOperation (history : History) : Option Operation :=
  match history.position with
  | none => none
  | some index => history.entries[index]?.map (·.operation.inverse)

def redoOperation (history : History) : Option Operation :=
  history.entries[history.applied]?.map (·.operation)

/-- Marks an entry as one that was undone or redone. -/
def finish (history : History) (index : Nat) : List HistoryEntry :=
  history.entries.modify index ({ · with finished := true })

def commitUndo (history : History) : History :=
  match history.position with
  | none => history
  | some index => { history with entries := history.finish index, applied := index }

def commitRedo (history : History) : History :=
  if history.applied < history.size then
    { history with
      entries := history.finish history.applied
      applied := history.applied + 1 }
  else history

def clear (history : History) : History := { history with entries := [], applied := 0 }

end History
end LiveHighlight
