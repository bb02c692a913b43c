import LuauWorkspace.Toml.Basic

/-! # Building tables

While a document is read, a table remembers how it came about. A table with a header of its own
cannot get another one, and keys with points do not lead through it; a table that lies above one
with a header gets values under its own header only; a table that keys with points made cannot get a
header; a value is never replaced. -/

namespace LuauWorkspace

/-- How a table came about. -/
inductive TableOrigin where
  /-- It lies above a table with a header. -/
  | implied
  /-- It has a header. -/
  | header
  /-- It comes from a key with points. -/
  | dotted
deriving DecidableEq

/-- A part of a document that is being read. The last table of a list of tables is still open. -/
inductive TomlDraft where
  | value (value : Toml)
  | table (origin : TableOrigin) (entries : List (String × TomlDraft))
  | tables (closed : List (List (String × TomlDraft))) (last : List (String × TomlDraft))

namespace TomlDraft

/-- Named parts of a document. -/
abbrev Entries := List (String × TomlDraft)

/-- The entries with a value under a key, which must be free. -/
def putValue (entries : Entries) (value : Toml) : List String → Option Entries
  | [] => none
  | [key] =>
    match Dictionary.find? entries key with
    | none => some (Dictionary.insert entries key (.value value))
    | some _ => none
  | key :: rest =>
    match Dictionary.find? entries key with
    | none => do
      return Dictionary.insert entries key (.table .dotted (← putValue [] value rest))
    | some (.table origin inner) =>
      if origin = .header ∨ (origin = .implied ∧ rest.length = 1) then none
      else do
        return Dictionary.insert entries key (.table origin (← putValue inner value rest))
    | some _ => none

/-- Change the last named part below the others on the way to it. Missing tables on the way are
implied. -/
def change (last : Option TomlDraft → Option TomlDraft) (entries : Entries) :
    List String → Option Entries
  | [] => none
  | [key] => do
    return Dictionary.insert entries key (← last (Dictionary.find? entries key))
  | key :: rest => do
    let part ←
      match Dictionary.find? entries key with
      | none => do pure (.table .implied (← change last [] rest))
      | some (.table origin inner) => do pure (.table origin (← change last inner rest))
      | some (.tables closed inner) => do pure (.tables closed (← change last inner rest))
      | some (.value _) => none
    return Dictionary.insert entries key part

/-- Open a table by its header. -/
def openTable (entries : Entries) (path : List String) : Option Entries :=
  change (fun
    | none => some (.table .header [])
    | some (.table .implied inner) => some (.table .header inner)
    | some _ => none) entries path

/-- Open one more table of a list by its header. -/
def openTables (entries : Entries) (path : List String) : Option Entries :=
  change (fun
    | none => some (.tables [] [])
    | some (.tables closed last) => some (.tables (closed ++ [last]) [])
    | some _ => none) entries path

/-- Put a value into the open table with a header, or at the top when there is no header yet. -/
def putBelow (entries : Entries) (header path : List String) (value : Toml) : Option Entries :=
  if header.isEmpty then putValue entries value path
  else
    change (fun
      | some (.table origin inner) => do return .table origin (← putValue inner value path)
      | some (.tables closed last) => do return .tables closed (← putValue last value path)
      | _ => none) entries header

mutual

/-- The value of a part. -/
def toToml : TomlDraft → Toml
  | .value held => held
  | .table _ entries => .table (entriesToToml entries)
  | .tables closed last => .array (tablesToToml closed ++ [.table (entriesToToml last)])

/-- The values of named parts. -/
def entriesToToml : List (String × TomlDraft) → List (String × Toml)
  | [] => []
  | (key, part) :: rest => (key, toToml part) :: entriesToToml rest

/-- The values of tables. -/
def tablesToToml : List (List (String × TomlDraft)) → List Toml
  | [] => []
  | entries :: rest => .table (entriesToToml entries) :: tablesToToml rest

end

end TomlDraft

end LuauWorkspace
