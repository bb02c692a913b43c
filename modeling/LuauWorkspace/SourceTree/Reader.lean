import LuauWorkspace.Json.Typed
import LuauWorkspace.SourceTree.Basic

/-! # Reading source trees

A source tree is written in JSON. An instance is an object, of which unknown members are ignored, or
a list of its fields in order. The name and the class are required. -/

namespace LuauWorkspace.SourceTree

open JsonReader

/-- The fields of an instance that have been read. -/
structure Draft where
  name : Option String := none
  className : Option String := none
  files : Option (List String) := none
  children : Option (List SourceTree) := none
  metadata : Option (Option Json) := none

/-- The instance with the fields of a draft. -/
def ofDraft (draft : Draft) : JsonReader SourceTree := do
  let some name := draft.name | throw (.missingField "name")
  let some className := draft.className | throw (.missingField "className")
  return mk name className (draft.files.getD []) (draft.children.getD [])
    (draft.metadata.getD none)

/-- What a list of fields is measured against. -/
def fieldCount : String := "struct SourceNode with 5 elements"

/-- One instance with everything below it. -/
def reader (depth : Nat) : JsonReader SourceTree := do
  let readName := text "a string"
  let readFiles (depth : Nat) := listOf depth fun _ => text "a UTF-8 path string"
  let readMetadata (depth : Nat) := optional (value depth)
  match ← peekToken with
  | some '\x7b' =>
    match depth with
    | 0 => throw .tooDeep
    | depth + 1 =>
      let draft ← object (fun (draft : Draft) member => do
        match member with
        | "name" => return { draft with name := ← once member draft.name readName }
        | "className" => return { draft with className := ← once member draft.className readName }
        | "filePaths" =>
          return { draft with files := ← once member draft.files (readFiles depth) }
        | "children" =>
          return { draft with children := ← once member draft.children (readChildren depth) }
        | "pluginMetadata" =>
          return { draft with metadata := ← once member draft.metadata (readMetadata depth) }
        | _ =>
          colon
          skip
          return draft) {}
      ofDraft draft
  | some '[' =>
    match depth with
    | 0 => throw .tooDeep
    | depth + 1 =>
      drop
      let name ← itemOr (throw (.tooShort 0 fieldCount)) true readName
      let className ← itemOr (throw (.tooShort 1 fieldCount)) false readName
      let files ← itemOr (pure []) false (readFiles depth)
      let children ← itemOr (pure []) false (readChildren depth)
      let metadata ← itemOr (pure none) false (readMetadata depth)
      closeList
      return mk name className files children metadata
  | _ => mismatch "struct SourceNode"
where
  /-- The children of an instance. -/
  readChildren (depth : Nat) : JsonReader (List SourceTree) := do
    if (← peekToken) == some '[' then
      match depth with
      | 0 => throw .tooDeep
      | depth + 1 => list (reader depth)
    else mismatch "a sequence"

/-- Read a source tree from its text. -/
def read (text : String) : Except JsonError SourceTree := JsonReader.run (reader nesting) text

end LuauWorkspace.SourceTree
