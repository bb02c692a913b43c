import LuauWorkspace.Json.Typed
import LuauWorkspace.AnalysisConfig.Basic
import LuauWorkspace.Text.Blank

/-! # Reading configuration files

A configuration file is a JSON object with known members, or a list of all of them in order. An
empty file sets nothing. -/

namespace LuauWorkspace.ConfigFile

open JsonReader

/-- The fields of a configuration file that have been read. A field that is `null` is read but sets
nothing. -/
structure Draft where
  mode : Option (Option Strictness) := none
  lint : Option (Option (Dictionary Bool)) := none
  lintErrors : Option (Option Bool) := none
  typeErrors : Option (Option Bool) := none
  globals : Option (Option (List String)) := none
  aliases : Option (Option (Dictionary String)) := none

/-- The file with the fields of a draft. -/
def ofDraft (draft : Draft) : ConfigFile where
  mode := draft.mode.join
  lint := draft.lint.join
  lintErrors := draft.lintErrors.join
  typeErrors := draft.typeErrors.join
  globals := draft.globals.join
  aliases := draft.aliases.join

/-- The names of the fields, in order. -/
def fieldNames : List String :=
  ["languageMode", "lint", "lintErrors", "typeErrors", "globals", "aliases"]

/-- What a list of fields is measured against. -/
def fieldCount : String := "struct LuauConfigFile with 6 elements"

/-- A whole configuration file. -/
def reader : JsonReader ConfigFile := do
  let depth := nesting - 1
  let readMode := optional (oneOf depth Strictness.all)
  let readLint := optional (dictionaryOf depth boolean)
  let readFlag := optional boolean
  let readGlobals := optional (listOf depth fun _ => text "a string")
  let readAliases := optional (dictionaryOf depth (text "a string"))
  match ← peekToken with
  | some '\x7b' =>
    let draft ← object (fun (draft : Draft) member => do
      match member with
      | "languageMode" => return { draft with mode := ← once member draft.mode readMode }
      | "lint" => return { draft with lint := ← once member draft.lint readLint }
      | "lintErrors" => return { draft with lintErrors := ← once member draft.lintErrors readFlag }
      | "typeErrors" => return { draft with typeErrors := ← once member draft.typeErrors readFlag }
      | "globals" => return { draft with globals := ← once member draft.globals readGlobals }
      | "aliases" => return { draft with aliases := ← once member draft.aliases readAliases }
      | _ => throw (.unknownField member fieldNames)) {}
    return ofDraft draft
  | some '[' =>
    drop
    let short {α : Type} (length : Nat) : JsonReader α := throw (.tooShort length fieldCount)
    let mode ← itemOr (short 0) true readMode
    let lint ← itemOr (short 1) false readLint
    let lintErrors ← itemOr (short 2) false readFlag
    let typeErrors ← itemOr (short 3) false readFlag
    let globals ← itemOr (short 4) false readGlobals
    let aliases ← itemOr (short 5) false readAliases
    closeList
    return { mode, lint, lintErrors, typeErrors, globals, aliases }
  | _ => mismatch "struct LuauConfigFile"

/-- Read a configuration file from its text. -/
def read (text : String) : Except JsonError ConfigFile :=
  if (Text.trim text.toList).isEmpty then .ok {} else JsonReader.run reader text

end LuauWorkspace.ConfigFile
