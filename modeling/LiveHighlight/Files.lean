import LiveHighlight.Path
import LiveHighlight.Text

/-! The files that paths lead to. A path may be spelled in several ways; what exists is told apart
by where it is, other paths by how they are spelled. -/

namespace LiveHighlight

inductive FileError where
  | notFound
  | isDirectory
  | notDirectory
  | nameTooLong
  | nulInPath
  | invalidData
  | permissionDenied
  deriving DecidableEq, Repr

def FileError.message : FileError → String
  | .notFound => "No such file or directory (os error 2)"
  | .isDirectory => "Is a directory (os error 21)"
  | .notDirectory => "Not a directory (os error 20)"
  | .nameTooLong => "File name too long (os error 36)"
  | .nulInPath => "file name contained an unexpected NUL byte"
  | .invalidData => "stream contained invalid UTF-8"
  | .permissionDenied => "Permission denied (os error 13)"

/-- The name of the kind of failure. -/
def FileError.kindName : FileError → String
  | .notFound => "NotFound"
  | .isDirectory => "IsADirectory"
  | .notDirectory => "NotADirectory"
  | .nameTooLong => "InvalidFilename"
  | .nulInPath => "InvalidInput"
  | .invalidData => "InvalidData"
  | .permissionDenied => "PermissionDenied"

/-- What a file holds. Only bytes that encode a text can be read as one. -/
inductive Content where
  | text (characters : Text)
  | binary (bytes : List UInt8)
  deriving DecidableEq, Repr

def Content.ofBytes (bytes : List UInt8) : Content :=
  match String.fromUTF8? ⟨bytes.toArray⟩ with
  | some s => .text s.toList
  | none => .binary bytes

def Content.read : Content → Except FileError Text
  | .text characters => .ok characters
  | .binary _ => .error .invalidData

/-- A name in a folder. -/
structure Entry where
  folder : Folder
  name : String
  deriving DecidableEq, Repr

/-- What tells one open file from another. -/
inductive FileKey where
  | file (entry : Entry)
  | folder (folder : Folder)
  /-- A path that leads nowhere. -/
  | spelled (absolute dotted : Bool) (names : List String)
  deriving DecidableEq, Repr

/-- A path by its spelling. Dots count only at the start. A name at the root is spelled as the file
would be. -/
def FileKey.ofSpelling (path : String) : FileKey :=
  match Path.isAbsolute path, (Path.names path).filter (· ≠ ".") with
  | true, [name] =>
    if name = ".." then .spelled true (Path.isDotted path) [name] else .file ⟨.root, name⟩
  | absolute, names => .spelled absolute (Path.isDotted path) names

/-- What a path leads to. -/
inductive Place where
  | file (entry : Entry) (content : Content)
  | folder (folder : Folder)
  deriving DecidableEq, Repr

/-- Files by entry. The folders are the root and those on the way to the working directory. Some
paths may not be read or not be written, for whatever reason. -/
structure Files where
  contents : List (Entry × Content) := []
  unreadable : List (String × FileError) := []
  unwritable : List (String × FileError) := []
  deriving DecidableEq, Repr

namespace Files

def get? (files : Files) (entry : Entry) : Option Content :=
  (files.contents.find? (·.1 = entry)).map (·.2)

def erase (files : Files) (entry : Entry) : Files :=
  { files with contents := files.contents.filter (·.1 ≠ entry) }

def put (files : Files) (entry : Entry) (content : Content) : Files :=
  { files with contents := (entry, content) :: (files.erase entry).contents }

/-- Follows one name from a folder. -/
def enter (files : Files) (folder : Folder) (name : String) : Except FileError Place :=
  if name = "." then .ok (.folder folder)
  else if name = ".." then .ok (.folder folder.parent)
  else if Path.maxNameLength < name.utf8ByteSize then .error .nameTooLong
  else
    match files.get? ⟨folder, name⟩ with
    | some content => .ok (.file ⟨folder, name⟩ content)
    | none => .error .notFound

/-- Follows names in order. Only a folder leads on. -/
def follow (files : Files) : Place → List String → Except FileError Place
  | place, [] => .ok place
  | .file _ _, _ :: _ => .error .notDirectory
  | .folder folder, name :: rest =>
    match files.enter folder name with
    | .error e => .error e
    | .ok place => files.follow place rest

/-- What a path leads to. The empty path leads nowhere. -/
def resolve (files : Files) (path : String) : Except FileError Place :=
  if path = "" then .error .notFound
  else files.follow (.folder (Path.origin path)) (Path.trail path)

def key (files : Files) (path : String) : FileKey :=
  match files.resolve path with
  | .ok (.file entry _) => .file entry
  | .ok (.folder folder) => .folder folder
  | .error _ => .ofSpelling path

/-- Why a path is refused before it is followed, given the paths that are refused by name. A key is
looked up without this. -/
def refusal (refused : List (String × FileError)) (path : String) : Option FileError :=
  if '\x00' ∈ path.toList then some .nulInPath
  else if Path.maxLength < path.utf8ByteSize then some .nameTooLong
  else refused.lookup path

def read (files : Files) (path : String) : Except FileError Text :=
  match refusal files.unreadable path with
  | some e => .error e
  | none =>
    match files.resolve path with
    | .ok (.file _ content) => content.read
    | .ok (.folder _) => .error .isDirectory
    | .error e => .error e

/-- The entry that a file written to a path has. The last name may be free, but a slash after it
asks for a folder, and this is seen before the name is looked at. -/
def target (files : Files) (path : String) : Except FileError Entry :=
  match (Path.names path).getLast? with
  | none => .error (if path = "" then .notFound else .isDirectory)
  | some name =>
    match files.follow (.folder (Path.origin path)) (Path.names path).dropLast with
    | .error e => .error e
    | .ok (.file _ _) => .error .notDirectory
    | .ok (.folder folder) =>
      if Path.endsInSlash path then .error .isDirectory
      else
        match files.enter folder name with
        | .ok (.folder _) => .error .isDirectory
        | .ok (.file entry _) => .ok entry
        | .error .notFound => .ok ⟨folder, name⟩
        | .error e => .error e

def write (files : Files) (path : String) (content : Content) : Except FileError Files :=
  match refusal files.unwritable path with
  | some e => .error e
  | none =>
    match files.target path with
    | .ok entry => .ok (files.put entry content)
    | .error e => .error e

/-- Deletes a file. There is no answer if the path leads to none. -/
def delete (files : Files) (path : String) : Option Files :=
  match refusal files.unwritable path, files.resolve path with
  | none, .ok (.file entry _) => some (files.erase entry)
  | _, _ => none

end Files
end LiveHighlight
