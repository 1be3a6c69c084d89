import LiveHighlight.Pieces

/-! Paths as they are written: names between slashes, followed from the working directory or from
the root. -/

namespace LiveHighlight

/-- A directory, seen from the working directory. -/
inductive Folder where
  | root
  /-- So many levels above the working directory, which is at level zero. -/
  | above (levels : Nat)
  deriving DecidableEq, Repr

/-- The folder that two dots lead to. The root is its own. -/
def Folder.parent : Folder → Folder
  | .root => .root
  | .above levels => .above (levels + 1)

namespace Path

/-- Bytes of the longest path that can be followed. -/
def maxLength : Nat := 4095

/-- Bytes of the longest name that a folder can hold. -/
def maxNameLength : Nat := 255

/-- What stands between the slashes, with empty text where slashes meet. -/
def parts (path : String) : List String := (pieces (· = '/') path.toList).map String.ofList

/-- The names of a path in order. Dots are names too. -/
def names (path : String) : List String := (parts path).filter (· ≠ "")

def isAbsolute (path : String) : Bool := path.toList.head? = some '/'

/-- Whether a path starts at the working directory by saying so. -/
def isDotted (path : String) : Bool := (parts path).head? = some "."

def endsInSlash (path : String) : Bool := path.toList.getLast? = some '/'

/-- The folder at which a path starts. -/
def origin (path : String) : Folder := if isAbsolute path then .root else .above 0

/-- The names to follow. A slash at the end asks for a folder, as a dot after it would. -/
def trail (path : String) : List String := names path ++ if endsInSlash path then ["."] else []

end Path
end LiveHighlight
