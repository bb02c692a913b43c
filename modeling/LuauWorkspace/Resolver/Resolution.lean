import LuauWorkspace.Require.Alias
import LuauWorkspace.Require.Walk
import LuauWorkspace.Resolver.Cascade

/-! # Resolving requires

A string is taken for a file alias, for a directory alias, for a way through the source tree or for
a path, in this order. A walk is followed through the source tree only. -/

namespace LuauWorkspace

open VirtualName

namespace TreeIndex

/-- One segment of a relative require from an instance. -/
def follow? (index : TreeIndex) (node : TreeEntry) : List Char → Option TreeEntry
  | [] => some node
  | ['.'] => some node
  | ['.', '.'] => index.parent? node
  | name => index.child? node (String.ofList name)

/-- A require without the extension of a script at its end. -/
def dropExtension (require : List Char) : List Char :=
  (Path.luauExtensions.findSome? fun extension =>
    Text.dropEnd? ('.' :: extension.toList) require).getD require

/-- The instance at which relative requires in an instance start. -/
def start? (index : TreeIndex) (node : TreeEntry) : Option TreeEntry :=
  if node.directoryLike then some node else index.parent? node

/-- The instance that a relative require in an instance names. -/
def relative? (index : TreeIndex) (context require : String) : Option TreeEntry := do
  let start ← index.start? (← index.ofPlace? context)
  (Text.splitOn isSeparator (dropExtension require.toList)).foldlM index.follow? start

end TreeIndex

namespace FileSystem

/-- The files inside a directory that may stand for it, the first choice first. -/
def initFiles (path : Path) : List Path :=
  Path.luauExtensions.map fun extension => path.child ("init." ++ extension)

/-- The files that a path without its extension may stand for, the first choice first. -/
def extendedFiles (path : Path) : List Path :=
  Path.luauExtensions.map fun extension => Path.ofString (path.toString ++ "." ++ extension)

/-- The file that is loaded for a path: the file itself, the `init` file of a directory, or the file
with the extension of a script added. -/
def moduleFile? (files : FileSystem) (path : Path) : Option Path :=
  if files.isFile path then some path
  else
    let inside := if files.isDirectory path then (initFiles path).find? files.isFile else none
    inside <|> (extendedFiles path).find? files.isFile

end FileSystem

/-- Where a string leads. -/
inductive RequireTarget where
  /-- To a path, at which a file may be loaded. -/
  | path (path : Path)
  /-- To the instance with a name. -/
  | node (name : String)
  | nowhere
deriving DecidableEq

namespace Resolver

/-- The module that is loaded for a path. -/
def moduleAt? (r : Resolver) (disk : FileSystem) (path : Path) : Option ResolvedModule :=
  ((r.files disk).moduleFile? path).map fun file => { name := r.nameOfPath file }

/-- The directory aliases in a module: those of its configuration count before those of the
settings. -/
def aliases (r : Resolver) (disk : FileSystem) (context : Option String) :
    Dictionary String × Resolver :=
  let own := r.settings.require.directoryAliases
  match context with
  | none => (own, r)
  | some name =>
    let (config, r) := r.config disk name
    (own.insertAll config.requireAliases, r)

/-- Where a string leads when it begins with no alias. -/
def plainTarget (r : Resolver) (disk : FileSystem) (context : Option String) (require : String) :
    RequireTarget :=
  if isVirtual require then
    match r.index.ofPlace? require with
    | some node => .node node.place
    | none => .nowhere
  else
    let onDisk :=
      RequireTarget.path (Path.absoluteIn (r.startDirectory disk context) (Path.ofString require))
    match context.filter isVirtual with
    | none => onDisk
    | some name =>
      match r.index.relative? name require with
      | some node => .node node.place
      | none => if (r.fileOf? name).isSome then onDisk else .nowhere

/-- Where a string leads. -/
def target (r : Resolver) (disk : FileSystem) (context : Option String) (require : String) :
    RequireTarget × Resolver :=
  match r.settings.require.fileAliases.find? require with
  | some target => (.path (Path.ofTarget r.home r.root target).normalize, r)
  | none =>
    let (aliases, r) := r.aliases disk context
    match Alias.resolve? r.home r.root aliases require with
    | some path => (.path path, r)
    | none => (r.plainTarget disk context require, r)

/-- The module at the end of the way. -/
def moduleOf? (r : Resolver) (disk : FileSystem) : RequireTarget → Option ResolvedModule
  | .path path => r.moduleAt? disk path
  | .node name => some { name }
  | .nowhere => none

/-- The module that a string names. -/
def resolveString (r : Resolver) (disk : FileSystem) (context : Option String)
    (require : String) : Option ResolvedModule × Resolver :=
  let (target, r) := r.target disk context require
  (r.moduleOf? disk target, r)

/-- The module that a require names. -/
def resolve (r : Resolver) (disk : FileSystem) (context : Option String) (expr : RequireArgument) :
    Option ResolvedModule × Resolver :=
  match expr with
  | .literal require => r.resolveString disk context require
  | _ => (RequireArgument.resolveWalk? r.index (context.bind r.placeOf?) expr, r)

/-- The module that the text of a require names: a walk when it reads as one, else a string. -/
def resolveText (r : Resolver) (disk : FileSystem) (context : Option String) (text : String) :
    Option ResolvedModule × Resolver :=
  r.resolve disk context ((RequireArgument.read? text).getD (.literal text))

end Resolver

end LuauWorkspace
