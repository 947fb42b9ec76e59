/-!
# Folders

What a command finds under a path when it is started in a folder with some files. A path is
followed name by name, and only its last name may be that of a file. Nothing is known of what is
outside the folder but that there are folders around it.
-/

namespace Rill

/-- Why a file cannot be read. -/
inductive AccessFault
  | missing
  | denied
  | directory
  | notDirectory
  | nameTooLong
deriving DecidableEq

namespace AccessFault

/-- Whether a file with this fault can be opened at all. -/
def isOpened : AccessFault → Bool
  | directory => true
  | _ => false

/-- The words for a file that cannot be read. -/
def message : AccessFault → String
  | missing => "No such file or directory (os error 2)"
  | denied => "Permission denied (os error 13)"
  | directory => "Is a directory (os error 21)"
  | notDirectory => "Not a directory (os error 20)"
  | nameTooLong => "File name too long (os error 36)"

end AccessFault

/-- What there is to read under a path. -/
inductive FileContent
  | bytes (content : ByteArray)
  | inaccessible (fault : AccessFault)

/-- A folder that commands are started in. -/
structure Folder where
  /-- The files in it and in the folders it holds, each by the names along its path. -/
  files : List (List String × ByteArray)

namespace Folder

/-- The names along a path, without those that stay where they are. -/
def names (path : String) : List String :=
  (path.splitOn "/").filter fun name => name ≠ "" ∧ name ≠ "."

/-- A folder that holds files under some paths. -/
def ofFiles (files : List (String × ByteArray)) : Folder :=
  ⟨files.map fun (path, content) => (names path, content)⟩

/-- Where following a path has led to. -/
inductive Place
  /-- The folder that these names lead to. -/
  | folder (names : List String)
  | file (content : ByteArray)
  | outside

/-- How many bytes a name may have. -/
def longestName : Nat := 255

/-- How many bytes a path may have. -/
def longestPath : Nat := 4095

/-- What these names lead to from the folder itself. -/
def enter (f : Folder) (names : List String) : Except AccessFault Place :=
  match f.files.lookup names with
  | some content => .ok (.file content)
  | none =>
    if f.files.any fun (path, _) => names.isPrefixOf path then .ok (.folder names)
    else .error .missing

/-- Follows a name from a place. -/
def step (f : Folder) (place : Place) (name : String) : Except AccessFault Place :=
  match place with
  | .file _ => .error .notDirectory
  | .folder names =>
    if name = "" ∨ name = "." then .ok place
    else if name = ".." then .ok (if names.isEmpty then .outside else .folder names.dropLast)
    else if longestName < name.utf8ByteSize then .error .nameTooLong
    else f.enter (names ++ [name])
  | .outside =>
    if name = "" ∨ name = "." ∨ name = ".." then .ok .outside
    else if longestName < name.utf8ByteSize then .error .nameTooLong
    else .error .missing

/-- Follows a path, from the folder or from outside of it. -/
def follow (f : Folder) (path : String) : Except AccessFault Place :=
  if path = "" then .error .missing
  else if longestPath < path.utf8ByteSize then .error .nameTooLong
  else
    let start : Place := if path.startsWith "/" then .outside else .folder []
    (path.splitOn "/").foldlM f.step start

/-- What there is to read under a path. -/
def content (f : Folder) (path : String) : FileContent :=
  match f.follow path with
  | .ok (.file content) => .bytes content
  | .ok _ => .inaccessible .directory
  | .error fault => .inaccessible fault

/-- Whether there is anything under a path. -/
def holds (f : Folder) (path : String) : Bool := (f.follow path).isOk

end Folder

end Rill
