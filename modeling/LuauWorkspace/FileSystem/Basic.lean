import LuauWorkspace.Document.Table

/-! # File systems

A file system answers whether a path is a file or a directory and gives the text of a file. Open
documents lie over it: they count as files, and their text is what is read. -/

namespace LuauWorkspace

/-- Why a file cannot be read. -/
inductive ReadError where
  | notFound
  | unreadable
  | notDirectory
  | isDirectory
  | notText
deriving DecidableEq

/-- The wording of a cause. -/
def ReadError.message : ReadError → String
  | notFound => "File not found"
  | unreadable => "unreadable"
  | notDirectory => "Not a directory"
  | isDirectory => "Is a directory"
  | notText => "stream did not contain valid UTF-8"

/-- A file system as a module resolver sees it. -/
structure FileSystem where
  isFile : Path → Bool
  isDirectory : Path → Bool
  read : Path → Except ReadError String

namespace FileSystem

/-- Whether there is a file or a directory at a path. -/
def isThere (files : FileSystem) (path : Path) : Bool :=
  files.isFile path || files.isDirectory path

/-- The open document that stands for the file at a path. -/
def document? (documents : DocumentTable) (path : Path) : Option Document :=
  (Uri.ofPath? path).bind documents.get?

/-- A file system with open documents over it. No document is a directory. -/
def withDocuments (disk : FileSystem) (documents : DocumentTable) : FileSystem where
  isFile path := (document? documents path).isSome || disk.isFile path
  isDirectory := disk.isDirectory
  read path :=
    match document? documents path with
    | some document => .ok document.content
    | none => disk.read path

end FileSystem

end LuauWorkspace
