import LuauWorkspace.CommandLine.Run

/-! # What a command looks at

The places on the disk that decide what a command does. Some of them can be told only when others
have been looked at: the settings name the source tree, which names the files of instances, and so
on. Looking at them again and again until no new place turns up is enough to run the command. -/

namespace LuauWorkspace

/-- A path and all directories above it. -/
def Path.upwards (path : Path) : List Path :=
  (List.range (path.segments.length + 1)).map fun count =>
    ⟨path.absolute, path.segments.take count⟩

/-- The files in which settings are looked for. -/
def Settings.files (home : Option String) (root : Path) : List Path :=
  (places home root).flatMap spellings

/-- The places that decide the configuration of a module. -/
def Resolver.configPlaces (r : Resolver) (name : String) : List Path :=
  match r.contextPath? name with
  | some path => path :: path.upwards.map fun directory => directory.child AnalysisConfig.fileName
  | none => []

/-- The places at which the module of a require may be found. -/
def RequireTarget.places : RequireTarget → List Path
  | .path place => place :: FileSystem.initFiles place ++ FileSystem.extendedFiles place
  | .node _ => []
  | .nowhere => []

namespace Surroundings

/-- The places that decide the answer to the question of a command. -/
def answerPlaces (here : Surroundings) (r : Resolver) : Command → List Path
  | .resolve require context =>
    let context := context.map fun file => r.nameOfPath (here.path file)
    let found :=
      match RequireArgument.read? require with
      | some _ => []
      | none => (r.target here.disk context require).1.places
    context.toList.flatMap r.configPlaces ++ found
  | .moduleName _ => []
  | .read module => (r.codeFile? (here.moduleName module)).toList.map (·.1)
  | .config file => r.configPlaces (r.nameOfPath (here.path file))

/-- The places that decide what a command does, as far as the disk can tell. -/
def places (here : Surroundings) (invocation : Invocation) : List Path :=
  let root := here.root invocation
  let tree :=
    match here.settings? invocation with
    | some settings => [settings.treeFile root.normalize]
    | none => []
  let answer :=
    match here.load invocation with
    | .ok r => here.answerPlaces r invocation.command
    | .error _ => []
  Settings.files here.home root ++ tree ++ answer

end Surroundings

end LuauWorkspace
