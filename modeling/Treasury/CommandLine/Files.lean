/-!
# Files of a call

A call reads files by their paths. `Folder.read` leads a path from a folder of known files, name by
name between its slashes, to the contents of a file or to the fault that stands in the way. The main
statement is that a path leads where its first part leads and its second part leads on from there.
-/

namespace Treasury.CommandLine

/-- Why a file is not read. -/
inductive FileFault where
  /-- There is no such file. -/
  | missing
  /-- The path leads to a folder. -/
  | folder
  /-- The path goes on after a file. -/
  | notFolder
  /-- The path holds the null character. -/
  | nullCharacter
  /-- The file is not opened, for instance because a name on the path is too long. -/
  | refused
  deriving DecidableEq, Repr

/-- The words for a fault. -/
def FileFault.message : FileFault → String
  | .missing => "No such file"
  | .folder => "The path leads to a folder"
  | .notFolder => "The path goes on after a file"
  | .nullCharacter => "embedded null byte"
  | .refused => "The file is not opened"

/-- The contents of files by path. -/
abbrev Files := String → Except FileFault ByteArray

/-- The files at and below a folder, each with the names that lead to it. -/
abbrev Folder := List (List String × ByteArray)

namespace Folder

/-- Where a path has led so far. -/
inductive Place where
  /-- A folder, by the names that lead to it. -/
  | within (names : List String)
  /-- A folder that the known one is in. Nothing is known of its other members. -/
  | above
  /-- A file. -/
  | file (contents : ByteArray)

/-- The most bytes that a name may have. -/
def nameLimit : Nat := 255

/-- The most bytes that a path may have. -/
def pathLimit : Nat := 4095

/-- Whether a name stays in a folder. -/
def stays (name : String) : Bool := name = "" || name = "."

/-- Follows a name. -/
def enter (files : Folder) (place : Place) (name : String) : Except FileFault Place :=
  match place with
  | .file _ => .error .notFolder
  | .above =>
    if stays name || name = ".." then .ok .above
    else .error (if name.utf8ByteSize > nameLimit then .refused else .missing)
  | .within names =>
    if stays name then .ok place
    else if name = ".." then .ok (if names.isEmpty then .above else .within names.dropLast)
    else if name.utf8ByteSize > nameLimit then .error .refused
    else
      let names := names ++ [name]
      match files.lookup names with
      | some contents => .ok (.file contents)
      | none => if files.any (names.isPrefixOf ·.1) then .ok (.within names) else .error .missing

/-- Follows names one after another. -/
def walk (files : Folder) (place : Place) (names : List String) : Except FileFault Place :=
  names.foldlM (enter files) place

/-- The contents of the file that a path leads to. -/
def read (files : Folder) : Files := fun path =>
  if path.contains '\x00' then .error .nullCharacter
  else if path = "" then .error .missing
  else if path.utf8ByteSize > pathLimit then .error .refused
  else do
    let start := if path.startsWith "/" then .above else .within []
    match ← walk files start (path.splitOn "/") with
    | .file contents => return contents
    | _ => throw .folder

/-- The files of the given paths. -/
def ofPaths (files : List (String × ByteArray)) : Folder :=
  files.map fun (path, contents) => ((path.splitOn "/").filter (!stays ·), contents)

/-- A path leads where its first part leads, and its second part leads on from there. -/
theorem walk_append (files : Folder) (place : Place) (first second : List String) :
    walk files place (first ++ second) =
      (walk files place first).bind fun place => walk files place second := by
  simp only [walk, List.foldlM_append]
  rfl

end Folder

end Treasury.CommandLine
