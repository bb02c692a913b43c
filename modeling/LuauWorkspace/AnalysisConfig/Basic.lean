import LuauWorkspace.Dictionary
import LuauWorkspace.Path.Home

/-! # Analysis configuration

A configuration tells how a module is checked. A configuration file lists only what it changes;
`apply` lays it over the configuration of the directory above. -/

namespace LuauWorkspace

/-- How strictly types are checked. -/
inductive Strictness where
  | noCheck
  | nonStrict
  | strict
deriving DecidableEq, Inhabited

/-- The name of a mode. -/
def Strictness.toString : Strictness → String
  | noCheck => "nocheck"
  | nonStrict => "nonstrict"
  | strict => "strict"

/-- The modes with their names. -/
def Strictness.all : List (String × Strictness) :=
  [Strictness.noCheck, .nonStrict, .strict].map fun mode => (mode.toString, mode)

/-- The configuration in force for a directory. An alias, named without its `@`, stands for an
absolute directory. -/
structure AnalysisConfig where
  mode : Strictness := .nonStrict
  lint : Dictionary Bool := []
  lintErrors : Bool := false
  typeErrors : Bool := true
  globals : List String := []
  aliases : Dictionary Path := []
deriving DecidableEq, Inhabited

/-- What one configuration file sets. -/
structure ConfigFile where
  mode : Option Strictness := none
  lint : Option (Dictionary Bool) := none
  lintErrors : Option Bool := none
  typeErrors : Option Bool := none
  globals : Option (List String) := none
  aliases : Option (Dictionary String) := none
deriving DecidableEq, Inhabited

namespace AnalysisConfig

/-- The name of a configuration file. -/
def fileName : String := ".luaurc"

/-- The lint under which the setting of all unlisted lints stands. -/
def anyLint : String := "*"

/-- The list with a name at its end unless it is there already. -/
def addGlobal (globals : List String) (name : String) : List String :=
  if name ∈ globals then globals else globals ++ [name]

/-- The directory that an alias in the configuration file of `directory` stands for. -/
def aliasTarget (home : Option String) (directory : Path) (target : String) : Path :=
  (Path.ofTarget home directory target).normalize

/-- The configuration with a file found in `directory` laid over it. Single settings are replaced,
lints and aliases are replaced one by one, and globals are added at the end. -/
def apply (home : Option String) (config : AnalysisConfig) (file : ConfigFile) (directory : Path) :
    AnalysisConfig where
  mode := file.mode.getD config.mode
  lint := config.lint.insertAll (file.lint.getD [])
  lintErrors := file.lintErrors.getD config.lintErrors
  typeErrors := file.typeErrors.getD config.typeErrors
  globals := (file.globals.getD []).foldl addGlobal config.globals
  aliases := config.aliases.insertAll <|
    (file.aliases.getD []).map fun (name, target) => (name, aliasTarget home directory target)

/-- Whether a lint is on: by its own setting, else by that of unlisted lints, else it is. -/
def isLintOn (config : AnalysisConfig) (lint : String) : Bool :=
  (config.lint.find? lint <|> config.lint.find? anyLint).getD true

/-- The aliases as a require spells them, with their targets. -/
def requireAliases (config : AnalysisConfig) : Dictionary String :=
  config.aliases.map fun (name, target) => ("@" ++ name, target.toString)

end AnalysisConfig

end LuauWorkspace
