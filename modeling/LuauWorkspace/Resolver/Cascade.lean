import LuauWorkspace.AnalysisConfig.Reader
import LuauWorkspace.Resolver.Naming

/-! # The configuration of a directory

The configuration of a directory is made of the configuration files from the root of the workspace
down to it, laid over each other. A file that cannot be read or understood counts as absent. Every
directory on the way is remembered. -/

namespace LuauWorkspace.Resolver

/-- The configuration file of a directory. -/
def configFile? (r : Resolver) (disk : FileSystem) (directory : Path) : Option ConfigFile :=
  let file := directory.child AnalysisConfig.fileName
  let files := r.files disk
  if files.isFile file then
    match files.read file with
    | .ok text => (ConfigFile.read text).toOption
    | .error _ => none
  else none

/-- The directory whose configuration a directory inherits: none at the root of the workspace. -/
def configParent? (r : Resolver) (directory : Path) : Option Path :=
  if directory = r.root then none else directory.parent?

/-- A configuration with the file of a directory laid over it. -/
def layer (r : Resolver) (disk : FileSystem) (inherited : AnalysisConfig) (directory : Path) :
    AnalysisConfig :=
  match r.configFile? disk directory with
  | some file => inherited.apply r.home file directory
  | none => inherited

/-- The configuration of a directory, and all configurations that are known then. -/
def cascade (r : Resolver) (disk : FileSystem) (configs : List (Path × AnalysisConfig))
    (directory : Path) : AnalysisConfig × List (Path × AnalysisConfig) :=
  match configs.lookup directory with
  | some config => (config, configs)
  | none =>
    let (inherited, configs) :=
      match _h : r.configParent? directory with
      | some parent => cascade r disk configs parent
      | none => (r.defaults, configs)
    let config := r.layer disk inherited directory
    (config, (directory, config) :: configs)
termination_by directory.segments.length
decreasing_by
  simp only [configParent?, Option.ite_none_left_eq_some] at _h
  exact Path.parent?_length _h.2

/-- The configuration of a directory. -/
def configOfDirectory (r : Resolver) (disk : FileSystem) (directory : Path) :
    AnalysisConfig × Resolver :=
  let (config, configs) := r.cascade disk r.configs directory
  (config, { r with configs })

/-- The directory that a module is configured in. -/
def directoryOf? (r : Resolver) (disk : FileSystem) (name : String) : Option Path := do
  let path ← r.contextPath? name
  if (r.files disk).isDirectory path then return path else path.parent?

/-- The configuration of a module. -/
def config (r : Resolver) (disk : FileSystem) (name : String) : AnalysisConfig × Resolver :=
  match r.directoryOf? disk name with
  | some directory => r.configOfDirectory disk directory
  | none => (r.defaults, r)

end LuauWorkspace.Resolver
