import LuauWorkspace.Resolver.Reload
import LuauWorkspace.Settings.Reader

/-! # Loading a workspace

The settings come from a file of the user and from two files in the root of the workspace; the
source tree is read as they say. -/

namespace LuauWorkspace

/-- Why a workspace cannot be loaded. -/
inductive LoadError where
  | badSettings
  | badWorkspace (cause : ReloadError)

/-- The wording of a cause. -/
def LoadError.message : LoadError → String
  | badSettings => "Configuration build/deserialize error"
  | badWorkspace cause => cause.message

namespace Settings

/-- The place of the settings of a user, who has a home directory. -/
def userPlace (home : String) : Path :=
  (Path.ofString home).join (Path.ofString ".config/lurk/lurk.toml")

/-- The places where settings are looked for, the weakest first. -/
def places (home : Option String) (root : Path) : List Path :=
  (home.map userPlace).toList ++ [root.child ".lurk.toml", root.child "lurk.toml"]

/-- The files that may be at a place: the extension may be there twice. -/
def spellings (place : Path) : List Path := [place, Path.ofString (place.toString ++ ".toml")]

/-- The file at a place. -/
def file? (disk : FileSystem) (place : Path) : Option Path :=
  (spellings place).find? disk.isFile

/-- The settings in the files at the given places. A place without a file sets nothing. -/
def ofPlaces? (disk : FileSystem) (places : List Path) : Option Settings := do
  let texts ← (places.filterMap (file? disk)).mapM fun file => (disk.read file).toOption
  ofLayers? texts

end Settings

namespace Resolver

/-- The resolver for a root with its source tree. -/
def start (home : Option String) (root : Path) (settings : Settings) (disk : FileSystem) :
    Except LoadError Resolver :=
  match (create home root settings).reload disk with
  | (.ok _, r) => .ok r
  | (.error cause, _) => .error (.badWorkspace cause)

/-- Load the settings and the source tree of a workspace. -/
def load (home : Option String) (root : Path) (disk : FileSystem) : Except LoadError Resolver :=
  match Settings.ofPlaces? disk (Settings.places home root) with
  | some settings => start home root settings disk
  | none => .error .badSettings

end Resolver

end LuauWorkspace
