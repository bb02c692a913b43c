import LuauWorkspace.FileSystem.Tree

/-! # Files that have been looked at

What has been seen of a disk so far. A place that has not been looked at counts as empty. -/

namespace LuauWorkspace

/-- What has been found at places. -/
structure KnownFiles where
  entries : List (Path × Option DiskEntry)

namespace KnownFiles

/-- Nothing has been looked at. -/
def empty : KnownFiles := ⟨[]⟩

/-- Whether a place has been looked at. -/
def covers (known : KnownFiles) (place : Path) : Bool := (known.entries.lookup place).isSome

/-- Add what has been found at a place. -/
def insert (known : KnownFiles) (place : Path) (found : Option DiskEntry) : KnownFiles :=
  ⟨(place, found) :: known.entries⟩

/-- What is at a place. -/
def entry? (known : KnownFiles) (place : Path) : Option DiskEntry :=
  (known.entries.lookup place).join

/-- The places as a file system. -/
def fileSystem (known : KnownFiles) : FileSystem where
  isFile place :=
    match known.entry? place with
    | some (.file _) => true
    | _ => false
  isDirectory place :=
    match known.entry? place with
    | some .directory => true
    | _ => false
  read place :=
    match known.entry? place with
    | some (.file (some content)) => .ok content
    | some (.file none) => .error .notText
    | some .directory => .error .isDirectory
    | none => .error .notFound

end KnownFiles

end LuauWorkspace
