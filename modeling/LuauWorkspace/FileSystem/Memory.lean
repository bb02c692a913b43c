import LuauWorkspace.FileSystem.Basic
import LuauWorkspace.Register

/-! # File systems in memory

A list of files. Every path that a file lies below is a directory, and a file may be there without
being readable. -/

namespace LuauWorkspace

/-- Files with their texts; a file without a text cannot be read. -/
structure MemoryFiles where
  files : Register Path (Option String)
deriving Inhabited

namespace MemoryFiles

/-- No files. -/
def empty : MemoryFiles := ⟨[]⟩

/-- The file at a path. -/
def find? (memory : MemoryFiles) (path : Path) : Option (Option String) :=
  memory.files.find? path

/-- The files without the one at a path. -/
def erase (memory : MemoryFiles) (path : Path) : MemoryFiles :=
  ⟨memory.files.erase path⟩

/-- The files with one more, which replaces what was at its path. -/
def insert (memory : MemoryFiles) (path : Path) (content : Option String) : MemoryFiles :=
  ⟨memory.files.put path content⟩

/-- The files as a file system. -/
def fileSystem (memory : MemoryFiles) : FileSystem where
  isFile path := (memory.find? path).isSome
  isDirectory path := memory.files.any fun (file, _) => file ≠ path && file.startsWith path
  read path :=
    match memory.find? path with
    | some (some content) => .ok content
    | some none => .error .unreadable
    | none => .error .notFound

end MemoryFiles

end LuauWorkspace
