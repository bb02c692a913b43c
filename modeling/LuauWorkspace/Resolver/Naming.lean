import LuauWorkspace.Path.Relative
import LuauWorkspace.Resolver.Basic

/-! # Module names

A module is named by its place in the source tree or, when no instance claims its file, by the
absolute path of the file. -/

namespace LuauWorkspace

open VirtualName

/-- The text of a module. It is `temporary` when it has been read from the disk. -/
structure ModuleDocument where
  document : Document
  temporary : Bool

namespace Resolver

/-- The name of the module in a file. -/
def nameOfPath (r : Resolver) (path : Path) : String :=
  let path := r.absolute path
  match r.index.ofFile? path with
  | some node => node.place
  | none => path.toString

/-- The name of the module in the document of a uri. -/
def nameOfUri (r : Resolver) (uri : Uri) : String :=
  match uri.filePath? with
  | some text => r.nameOfPath (Path.ofString text)
  | none => uri.toString

/-- The instance that a name stands for: by its place in the tree or by its file. -/
def node? (r : Resolver) (name : String) : Option TreeEntry :=
  if isVirtual name then r.index.ofPlace? name else r.index.ofFile? (r.path name)

/-- The place of a module in the tree. -/
def placeOf? (r : Resolver) (name : String) : Option String :=
  (r.node? name).map (·.place)

/-- The file of a module. -/
def fileOf? (r : Resolver) (name : String) : Option Path :=
  if isVirtual name then (r.index.ofPlace? name).bind (·.file) else some (r.path name)

/-- The file that stands for a module: an instance without one is stood for by its nearest ancestor
with one. -/
def contextPath? (r : Resolver) (name : String) : Option Path :=
  if isVirtual name then do (← r.index.nearestWithFile? (← r.index.ofPlace? name)).file
  else some (r.path name)

/-- The uri of the file of a module. -/
def uri? (r : Resolver) (name : String) : Option Uri := (r.fileOf? name).bind Uri.ofPath?

/-- The name of a module as users see it: a file in the workspace is shown relative to the root. -/
def displayName (r : Resolver) (name : String) : String :=
  if isVirtual name then name
  else
    let text := (r.path name).toString
    (Path.below? text r.root.toString).getD text

/-- Whether a path lies in the workspace. -/
def contains (r : Resolver) (path : Path) : Bool := path.normalize.startsWith r.root

/-- The directory at which a relative require in a module starts. -/
def startDirectory (r : Resolver) (disk : FileSystem) (context : Option String) : Path :=
  if r.settings.require.origin = .workspaceRoot then r.root
  else
    match context.bind r.contextPath? with
    | none => r.root
    | some path =>
      if (r.files disk).isDirectory path then path else path.parent?.getD r.root

/-- The text of a file: its open document, or else what the disk holds. -/
def documentOfPath? (r : Resolver) (disk : FileSystem) (path : Path) : Option ModuleDocument := do
  let uri ← Uri.ofPath? path
  match r.documents.get? uri with
  | some document => return ⟨document, false⟩
  | none =>
    let content ← (disk.read path).toOption
    return ⟨⟨uri, Language.ofPath path, 0, content⟩, true⟩

/-- The text of a module. -/
def document? (r : Resolver) (disk : FileSystem) (name : String) : Option ModuleDocument := do
  r.documentOfPath? disk (← r.fileOf? name)

end Resolver

end LuauWorkspace
