import LuauWorkspace.Path.Basic

/-! # File names

The stem and the extension of a file name, and the names that Luau sources go by. -/

namespace LuauWorkspace

/-- How the game engine runs a module. -/
inductive CodeKind where
  | module
  | script
  | localScript
deriving DecidableEq, Inhabited

/-- The language of a document. -/
inductive Language where
  | json
  | lua
  | luau
  | other
deriving DecidableEq, Inhabited

namespace Path

/-- A file name cut at its last dot. A name whose only dot comes first has no extension. -/
def splitName (name : String) : String × Option String :=
  match Text.splitLast '.' name.toList with
  | some (before@(_ :: _), after) => (String.ofList before, some (String.ofList after))
  | _ => (name, none)

/-- The file name without its extension. -/
def stem? (p : Path) : Option String := p.fileName?.map fun name => (splitName name).1

/-- What follows the last dot of the file name. -/
def extension? (p : Path) : Option String := p.fileName?.bind fun name => (splitName name).2

/-- The extensions of Luau sources, in the order in which a missing one is tried. -/
def luauExtensions : List String := ["luau", "lua"]

/-- Whether the path has the extension of a Luau source. -/
def isScript (p : Path) : Bool := p.extension?.any luauExtensions.contains

/-- Whether the path is an `init` file, which stands for the directory that holds it. -/
def isInit (p : Path) : Bool := p.isScript && p.stem? == some "init"

end Path

namespace CodeKind

/-- The kind of code that an instance of a class carries; most classes carry none. -/
def ofClass? : String → Option CodeKind
  | "ModuleScript" => some module
  | "Script" => some script
  | "LocalScript" => some localScript
  | _ => none

/-- The kind of code that a file holds, by the suffix `.server` or `.client` of its stem. -/
def ofPath (p : Path) : CodeKind :=
  match p.stem?.bind fun stem => Text.splitLast '.' stem.toList with
  | some (_, suffix) =>
    if suffix = "server".toList then script
    else if suffix = "client".toList then localScript
    else module
  | none => module

/-- The name of a kind of code. -/
def toString : CodeKind → String
  | module => "Module"
  | script => "Script"
  | localScript => "Local"

end CodeKind

namespace Language

/-- The language that a client announces under an identifier. -/
def ofIdentifier : String → Language
  | "luau" => luau
  | "lua" => lua
  | "json" => json
  | "jsonc" => json
  | _ => other

/-- The language of a file that no client has announced, by its extension. -/
def ofPath (p : Path) : Language :=
  match p.extension? with
  | some "luau" => luau
  | some "lua" => lua
  | some "json" => json
  | _ => other

/-- The name of a language. -/
def toString : Language → String
  | json => "json"
  | lua => "lua"
  | luau => "luau"
  | other => "other"

end Language

end LuauWorkspace
