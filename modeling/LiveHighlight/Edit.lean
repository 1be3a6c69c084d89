/-! Edits of a text and how they move offsets. An edit is given in offsets of the text before it. -/

namespace LiveHighlight

inductive EditKind where
  | insert
  | remove
  deriving DecidableEq, Repr

structure Edit where
  offset : Nat
  length : Nat
  kind : EditKind
  deriving DecidableEq, Repr

namespace Edit

/-- The change of the text length as a signed 64-bit word. -/
def delta (edit : Edit) : Int :=
  let length := Int.bmod edit.length 0x10000000000000000
  match edit.kind with
  | .insert => length
  | .remove => -length

/-- Where an offset of the text before the edit goes. Removed offsets go to the place of removal. -/
def mapForward (edit : Edit) (offset : Nat) : Nat :=
  if offset < edit.offset then offset
  else
    match edit.kind with
    | .insert => offset + edit.length
    | .remove => max (offset - edit.length) edit.offset

/-- Where an offset behind the edited text comes from. -/
def mapBack (edit : Edit) (offset : Nat) : Nat :=
  match edit.kind with
  | .insert => max (offset - edit.length) edit.offset
  | .remove => offset + edit.length

end Edit
end LiveHighlight
