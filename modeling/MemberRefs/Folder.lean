import MemberRefs.Text.Pieces

/-!
# Folders

The files of one folder, found by paths. A path is a row of names between slashes, each of which leads
from a folder to a place in it; one dot, or no name at all, stays where it is and two dots go up. Outside
of the folder only so much is known as holds on every system: that there are folders above, and at the
root some folders with fixed names, one of them with the empty file `null`. Only a place that is a file
has a content, and what keeps a path from leading to one is its `FileError`.
-/

namespace MemberRefs

/-- Why a file cannot be read. -/
inductive FileError where
  | notFound
  | notFolder
  | isFolder
  | nameTooLong
  | denied
  | notText
  | other (reason : String)
  deriving DecidableEq, Repr

/-- The reason in the words of the system. -/
def FileError.message : FileError → String
  | notFound => "No such file or directory (os error 2)"
  | notFolder => "Not a directory (os error 20)"
  | isFolder => "Is a directory (os error 21)"
  | nameTooLong => "File name too long (os error 36)"
  | denied => "Permission denied (os error 13)"
  | notText => "stream did not contain valid UTF-8"
  | other reason => reason

/-- The files of a folder by their names. -/
structure Folder where
  files : List (String × String)
  deriving DecidableEq, Repr

namespace Folder

/-! ## 1. Places -/

/-- Where a path may lead. -/
inductive Place where
  /-- The folder itself. -/
  | here
  | root
  /-- The folder `dev` at the root. -/
  | devices
  /-- Another folder. -/
  | elsewhere
  | file (content : String)
  deriving DecidableEq, Repr

/-- Folders that every system has at its root, beside that of the devices. -/
def rootFolders : List String := ["etc", "home", "proc", "tmp", "usr", "var"]

/-- What has a name in a place. -/
def entry? (folder : Folder) (name : String) : Place → Option Place
  | .here => (folder.files.lookup name).map .file
  | .root =>
      if name == "dev" then some .devices
      else if rootFolders.contains name then some .elsewhere
      else none
  | .devices => if name == "null" then some (.file "") else none
  | .elsewhere | .file _ => none

/-- The folder above a place. -/
def Place.up : Place → Place
  | .root | .devices => .root
  | _ => .elsewhere

/-- The largest size of a name, in bytes. -/
def largestName : Nat := 255

/-- The largest size of a path, in bytes. -/
def largestPath : Nat := 4095

/-- The place that a name leads to from a place. -/
def step (folder : Folder) : Place → String → Except FileError Place
  | .file _, _ => .error .notFolder
  | place, name =>
      if name == "" || name == "." then .ok place
      else if name == ".." then .ok place.up
      else if largestName < name.utf8ByteSize then .error .nameTooLong
      else
        match folder.entry? name place with
        | some next => .ok next
        | none => .error .notFound

/-! ## 2. Paths -/

/-- The place that a path leads to. A path that begins with a slash starts at the root. -/
def place (folder : Folder) (path : String) : Except FileError Place :=
  if path == "" then .error .notFound
  else if largestPath < path.utf8ByteSize then .error .nameTooLong
  else
    ((Text.pieces '/' path.toList).map String.ofList).foldlM folder.step
      (if path.toList.head? == some '/' then .root else .here)

/-- The content of the file that a path leads to. -/
def read (folder : Folder) (path : String) : Except FileError String :=
  match folder.place path with
  | .ok (.file content) => .ok content
  | .ok _ => .error .isFolder
  | .error reason => .error reason

end Folder

end MemberRefs
