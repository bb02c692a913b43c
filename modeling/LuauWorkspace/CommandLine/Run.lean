import LuauWorkspace.CommandLine.Arguments
import LuauWorkspace.Json.Writer
import LuauWorkspace.Resolver.Load
import LuauWorkspace.Resolver.Resolution
import LuauWorkspace.Resolver.ModuleSource

/-! # Running a command

A command loads the workspace and answers one question about it. Paths are relative to the directory
that the program is started in. -/

namespace LuauWorkspace

/-- Where the program is started. -/
structure Surroundings where
  home : Option String
  directory : Path
  disk : FileSystem

/-- What the program leaves behind. -/
structure Outcome where
  exitCode : Nat
  output : String
  errors : String
deriving DecidableEq

namespace Outcome

/-- A line of output. -/
def success (text : String) : Outcome := ⟨0, text ++ "\n", ""⟩

/-- A line about a failure. -/
def failure (text : String) : Outcome := ⟨1, "", text ++ "\n"⟩

end Outcome

/-! ## Failures -/

/-- The wordings of a cause and of what is behind it. -/
def ReloadError.chain (error : ReloadError) : List String :=
  match error with
  | badTree cause => [error.message, cause.message]
  | unreadable _ cause => [error.message, cause.message]

/-- The wordings of a cause, of where it arose and of what is behind it. -/
def LoadError.chain : LoadError → List String
  | badSettings => ["Failed to load settings", badSettings.message]
  | badWorkspace cause => "Failed to load sourcemap" :: cause.chain

/-- The line for a workspace that cannot be loaded. -/
def LoadError.report (error : LoadError) : Outcome :=
  .failure ("Error: " ++ ": ".intercalate error.chain)

/-! ## Questions -/

/-- A configuration as data. -/
def AnalysisConfig.toJson (config : AnalysisConfig) : Json :=
  .object [
    ("mode", .string config.mode.toString),
    ("lint", .object (config.lint.map fun (name, value) => (name, .bool value))),
    ("lintErrors", .bool config.lintErrors),
    ("typeErrors", .bool config.typeErrors),
    ("globals", .array (config.globals.map .string)),
    ("aliases", .object (config.aliases.map fun (name, path) => (name, .string path.toString)))]

namespace Surroundings

/-- The path that an argument spells. -/
def path (here : Surroundings) (text : String) : Path :=
  Path.absoluteIn here.directory (Path.ofString text)

/-- The module that an argument names: by its place in the tree or by its file. -/
def moduleName (here : Surroundings) (text : String) : String :=
  if VirtualName.isVirtual text then text else (here.path text).toString

/-- The root of the workspace. -/
def root (here : Surroundings) (invocation : Invocation) : Path :=
  (invocation.root.map here.path).getD here.directory

/-- The settings of the workspace. A source tree that is given on the command line is read even when
the settings in the files disable it. -/
def settings? (here : Surroundings) (invocation : Invocation) : Option Settings := do
  let settings ← Settings.ofPlaces? here.disk (Settings.places here.home (here.root invocation))
  match invocation.sourcemap with
  | none => return settings
  | some file =>
    return { settings with sourcemap := { enabled := true, file := (here.path file).toString } }

/-- The workspace of an invocation. -/
def load (here : Surroundings) (invocation : Invocation) : Except LoadError Resolver :=
  match here.settings? invocation with
  | some settings => Resolver.start here.home (here.root invocation) settings here.disk
  | none => .error .badSettings

/-- Answer the question of a command. -/
def answer (here : Surroundings) (r : Resolver) : Command → Outcome
  | .resolve require context =>
    let context := context.map fun file => r.nameOfPath (here.path file)
    match (r.resolveText here.disk context require).1 with
    | some found =>
      let mark := if found.optional then " (optional)" else ""
      .success s!"{found.name}\t{r.displayName found.name}{mark}"
    | none => .failure s!"Could not resolve `{require}`"
  | .moduleName file => .success (r.nameOfPath (here.path file))
  | .read module =>
    match r.source? here.disk (here.moduleName module) with
    | some code => .success s!"-- {code.displayName} ({code.kind.toString})\n{code.source}"
    | none => .failure s!"No source for `{module}`"
  | .config file =>
    .success (r.config here.disk (r.nameOfPath (here.path file))).1.toJson.toText

/-- Run a command. -/
def run (here : Surroundings) (invocation : Invocation) : Outcome :=
  match here.load invocation with
  | .ok r => here.answer r invocation.command
  | .error cause => cause.report

end Surroundings

/-- The exit code of a program that runs no command. -/
def Refusal.exitCode : Refusal → Nat
  | help => 0
  | misuse => 2

end LuauWorkspace
