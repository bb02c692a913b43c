import LuauWorkspace.Settings.Basic
import LuauWorkspace.Settings.Layers

/-! # Reading settings

The settings are taken from the merged documents. A value of a near kind is converted: a word or a
number for a truth value, a truth value or a number for a text. A record may be written as a list of
its fields. What is not set keeps its default, and what is not a setting is not looked at. -/

namespace LuauWorkspace

namespace Toml

/-! ## Conversions -/

/-- A truth value: itself, a number or a word in any case. -/
def truth? : Toml → Option Bool
  | boolean value => some value
  | integer value => some (value ≠ 0)
  | float value => some (!value.isZero)
  | string text =>
    let word := text.map Char.toLower
    if word ∈ ["1", "true", "on", "yes"] then some true
    else if word ∈ ["0", "false", "off", "no"] then some false
    else none
  | _ => none

/-- A text: itself, or a single value as it is written. -/
def text? : Toml → Option String
  | string text => some text
  | moment text => some text
  | boolean value => some (if value then "true" else "false")
  | integer value => some (toString value)
  | float value => some value.toText
  | _ => none

/-- Texts under names. -/
def texts? : Toml → Option (Dictionary String)
  | table entries => entries.mapM fun (name, value) => return (name, ← value.text?)
  | _ => none

/-- An origin: its name, or a table whose only entry has that name. -/
def requireOrigin? : Toml → Option RequireOrigin
  | string name => RequireOrigin.all.lookup name
  | table [(name, _)] => RequireOrigin.all.lookup name
  | _ => none

/-- The fields of a record, given by name or in order. -/
def fields? (names : List String) : Toml → Option (List (String × Toml))
  | table entries => some entries
  | array items => some (names.zip items)
  | _ => none

/-- A field of a record, or its default when it is not there. -/
def field? {α : Type} (fields : List (String × Toml)) (name : String) (read : Toml → Option α)
    (default : α) : Option α :=
  match fields.lookup name with
  | some value => read value
  | none => some default

end Toml

/-! ## Records -/

/-- How requires are resolved. -/
def RequireRules.ofToml? (value : Toml) : Option RequireRules := do
  let fields ← value.fields? ["mode", "file_aliases", "directory_aliases"]
  let default : RequireRules := {}
  return {
    origin := ← Toml.field? fields "mode" Toml.requireOrigin? default.origin
    fileAliases := ← Toml.field? fields "file_aliases" Toml.texts? default.fileAliases
    directoryAliases :=
      ← Toml.field? fields "directory_aliases" Toml.texts? default.directoryAliases }

/-- Where the source tree is. -/
def TreeLocation.ofToml? (value : Toml) : Option TreeLocation := do
  let fields ← value.fields? ["enabled", "file"]
  let default : TreeLocation := {}
  return {
    enabled := ← Toml.field? fields "enabled" Toml.truth? default.enabled
    file := ← Toml.field? fields "file" Toml.text? default.file }

namespace Settings

/-- All settings. -/
def ofToml? (value : Toml) : Option Settings := do
  let fields ← value.fields? ["debug", "require", "sourcemap"]
  let default : Settings := {}
  return {
    debug := ← Toml.field? fields "debug" Toml.truth? default.debug
    require := ← Toml.field? fields "require" RequireRules.ofToml? default.require
    sourcemap := ← Toml.field? fields "sourcemap" TreeLocation.ofToml? default.sourcemap }

/-- The settings in the texts of documents, each laid over those before it. -/
def ofLayers? (texts : List String) : Option Settings := do ofToml? (← Toml.layers? texts)

end Settings

end LuauWorkspace
