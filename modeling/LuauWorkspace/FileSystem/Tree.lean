import LuauWorkspace.FileSystem.Basic

/-! # File systems on a disk

Files and directories below one root. A path is walked entry by entry: every entry on the way has to
be a directory, and `..` leads to the directory above. -/

namespace LuauWorkspace

/-- What is found at the end of a walk. -/
inductive DiskEntry where
  | directory
  | file (content : Option String)

/-- Files and directories by the names that lead to them from the root. A file without a text holds
bytes that spell none. -/
structure DiskTree where
  files : List (List String × Option String)
  directories : List (List String)
deriving Inhabited

namespace DiskTree

/-- The names that lead to a place and to every directory above it. -/
def above (names : List String) : List (List String) :=
  (List.range (names.length + 1)).map names.take

/-- Put a file and the directories that lead to it on the disk. -/
def putFile (tree : DiskTree) (names : List String) (content : Option String) : DiskTree where
  files := (names, content) :: tree.files.filter (·.1 ≠ names)
  directories := (above names.dropLast ++ tree.directories).eraseDups

/-- Put a directory and those that lead to it on the disk. -/
def putDirectory (tree : DiskTree) (names : List String) : DiskTree :=
  { tree with directories := (above names ++ tree.directories).eraseDups }

/-- What is called by the names that lead to it. -/
def entry? (tree : DiskTree) (names : List String) : Option DiskEntry :=
  match tree.files.lookup names with
  | some content => some (.file content)
  | none => if names = [] ∨ names ∈ tree.directories then some .directory else none

/-- Walk from a directory along segments. -/
def walk (tree : DiskTree) (place : List String) : List Segment →
    Except ReadError (List String × DiskEntry)
  | [] =>
    match tree.entry? place with
    | some entry => .ok (place, entry)
    | none => .error .notFound
  | segment :: rest =>
    match tree.entry? place with
    | some .directory =>
      match segment with
      | .current => walk tree place rest
      | .up => walk tree place.dropLast rest
      | .name text => walk tree (place ++ [text]) rest
    | some (.file _) => .error .notDirectory
    | none => .error .notFound

/-- What is at an absolute path. -/
def locate (tree : DiskTree) (path : Path) : Except ReadError DiskEntry :=
  if path.absolute then (tree.walk [] path.segments).map (·.2) else .error .notFound

/-- The disk as a file system. -/
def fileSystem (tree : DiskTree) : FileSystem where
  isFile path :=
    match tree.locate path with
    | .ok (.file _) => true
    | _ => false
  isDirectory path :=
    match tree.locate path with
    | .ok .directory => true
    | _ => false
  read path := do
    match ← tree.locate path with
    | .file (some content) => return content
    | .file none => throw .notText
    | .directory => throw .isDirectory

end DiskTree

end LuauWorkspace
