import LuauWorkspace.Dictionary
import LuauWorkspace.Path.Normal

/-! # Settings

What a user sets for a project: how requires are resolved and where the source tree is found. -/

namespace LuauWorkspace

/-- Where a relative require starts. -/
inductive RequireOrigin where
  /-- At the directory of the file that requires. -/
  | requiringFile
  /-- At the root of the workspace. -/
  | workspaceRoot
deriving DecidableEq, Inhabited

/-- The name of an origin. -/
def RequireOrigin.toString : RequireOrigin → String
  | requiringFile => "relative-to-file"
  | workspaceRoot => "relative-to-workspace-root"

/-- The origins with all their names. -/
def RequireOrigin.all : List (String × RequireOrigin) :=
  [("relative-to-file", requiringFile), ("relativeToFile", requiringFile),
    ("relative-to-workspace-root", workspaceRoot), ("relativeToWorkspaceRoot", workspaceRoot)]

/-- How requires are resolved. A file alias is a whole require, a directory alias the beginning of
one. -/
structure RequireRules where
  origin : RequireOrigin := .requiringFile
  fileAliases : Dictionary String := []
  directoryAliases : Dictionary String := []
deriving DecidableEq, Inhabited

/-- Whether and where the source tree is read, relative to the root of the workspace. -/
structure TreeLocation where
  enabled : Bool := true
  file : String := "sourcemap.json"
deriving DecidableEq, Inhabited

/-- The settings of a workspace. -/
structure Settings where
  debug : Bool := false
  require : RequireRules := {}
  sourcemap : TreeLocation := {}
deriving DecidableEq, Inhabited

/-- The file of the source tree in a workspace. -/
def Settings.treeFile (settings : Settings) (root : Path) : Path :=
  Path.absoluteIn root (Path.ofString settings.sourcemap.file)

end LuauWorkspace
