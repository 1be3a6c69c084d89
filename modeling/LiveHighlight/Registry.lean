import LiveHighlight.Files
import LiveHighlight.Highlight.Relex

/-! The highlighting states of all open files, at most one for each file. -/

namespace LiveHighlight

structure Registry where
  states : List (FileKey × FileState) := []
  deriving DecidableEq

namespace Registry

def get? (registry : Registry) (key : FileKey) : Option FileState :=
  (registry.states.find? (·.1 = key)).map (·.2)

/-- Drops the state of a file. -/
def erase (registry : Registry) (key : FileKey) : Registry :=
  ⟨registry.states.filter (·.1 ≠ key)⟩

/-- Stores the state of a file in place of an earlier one. -/
def set (registry : Registry) (key : FileKey) (state : FileState) : Registry :=
  ⟨(key, state) :: (registry.erase key).states⟩

def isOpen (registry : Registry) (key : FileKey) : Bool := (registry.get? key).isSome

def size (registry : Registry) : Nat := registry.states.length

/-- The state of a file, which is created if it has none yet. -/
def getOrCreate (registry : Registry) (key : FileKey) (path : String) :
    FileState × Registry × List Event :=
  match registry.get? key with
  | some state => (state, registry, [])
  | none => (.initial, registry.set key .initial, [.stateCreated path])

/-- Drops the state of a file, and tells whether it had one. -/
def close (registry : Registry) (key : FileKey) : Bool × Registry :=
  (registry.isOpen key, registry.erase key)

theorem get?_erase (registry : Registry) (key other : FileKey) :
    (registry.erase key).get? other = if other = key then none else registry.get? other := by
  split
  · next h => simp [get?, erase, List.find?_filter, h]
  · next h =>
    simp only [get?, erase, List.find?_filter]
    congr 2
    funext a
    by_cases ha : a.1 = other
    · simp [ha, h]
    · simp [ha]

theorem get?_set (registry : Registry) (key other : FileKey) (state : FileState) :
    (registry.set key state).get? other =
      if other = key then some state else registry.get? other := by
  by_cases h : other = key
  · simp [get?, set, h]
  · have herase := get?_erase registry key other
    simp only [h, ite_false] at herase ⊢
    rw [← herase]
    simp [get?, set, Ne.symm h]

end Registry
end LiveHighlight
