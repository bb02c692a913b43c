import LuauWorkspace.DataModule
import LuauWorkspace.Resolver.Naming

/-! # The source of a module

The source comes from the open document of the file or from the disk; a JSON file is turned into a
module that returns its data. -/

namespace LuauWorkspace

/-- The source of a module. -/
structure ModuleSource where
  source : String
  kind : CodeKind
  displayName : String

namespace Resolver

/-- The file of a module with code, and the kind of the code. -/
def codeFile? (r : Resolver) (name : String) : Option (Path × CodeKind) :=
  if VirtualName.isVirtual name then do
    let node ← r.index.ofPlace? name
    return (← node.file, ← node.kind?)
  else
    let path := r.path name
    some (path, CodeKind.ofPath path)

/-- The source that the text of a file stands for. -/
def sourceOf? (path : Path) (content : String) : Option String :=
  if path.extension? = some "json" then (DataModule.ofText content).toOption else some content

/-- The source of a module. -/
def source? (r : Resolver) (disk : FileSystem) (name : String) : Option ModuleSource := do
  let (path, kind) ← r.codeFile? name
  let found ← r.documentOfPath? disk path
  return ⟨← sourceOf? path found.document.content, kind, r.displayName name⟩

end Resolver

end LuauWorkspace
