import LuauWorkspace.Toml.Reader

/-! # Laying settings over each other

Settings come from several documents, each of which is laid over the ones before it. Tables are
merged name by name; anything else takes the place of what was there. A name at the top of a
document may spell a place inside a setting, as in `"require.mode"` or `"list[0]"`. -/

namespace LuauWorkspace

/-- One step from a setting to a part of it. A negative position counts from the end. -/
inductive SettingStep where
  | name (text : String)
  | item (position : Int)
deriving DecidableEq

namespace SettingStep

/-! ## Places -/

/-- A position between brackets, blanks aside, and what follows the closing bracket. -/
def position? (text : List Char) : Option (Int × List Char) := do
  let blank (c : Char) : Bool := c == ' ' || c == '\t'
  let text := text.dropWhile blank
  let (negative, text) :=
    match text with
    | '-' :: rest => (true, rest)
    | _ => (false, text)
  let digits := text.takeWhile Char.isDigit
  if digits.isEmpty then none
  let size := Toml.numberOf 10 (digits.map fun c => c.toNat - 48)
  let position : Int := if negative then -size else size
  if position < -(twoTo 63 : Int) ∨ twoTo 63 ≤ position then none
  return (position, ← Text.dropStart? [']'] ((text.drop digits.length).dropWhile blank))

/-- A bare name and what follows it. -/
def name? (text : List Char) : Option (String × List Char) :=
  let name := text.takeWhile TomlReader.isBare
  if name.isEmpty then none else some (String.ofList name, text.drop name.length)

/-- All steps that a text spells. Every step takes a character at least, and `bound` is the length
of the text. -/
def steps? : Nat → List Char → Option (List SettingStep)
  | _, [] => some []
  | 0, _ :: _ => none
  | bound + 1, '.' :: rest => do
    let (text, rest) ← name? rest
    return .name text :: (← steps? bound rest)
  | bound + 1, '[' :: rest => do
    let (position, rest) ← position? rest
    return .item position :: (← steps? bound rest)
  | _ + 1, _ => none

/-- The steps that a name at the top of a document spells. A name that spells none is one step. -/
def ofName (text : String) : List SettingStep :=
  let spelled : Option (List SettingStep) := do
    let (first, rest) ← name? text.toList
    return .name first :: (← steps? rest.length rest)
  spelled.getD [.name text]

end SettingStep

namespace Toml

/-! ## Merging -/

/-- The entries of a table; anything else has none. -/
def entries : Toml → Dictionary Toml
  | table entries => entries
  | _ => []

/-- The items of an array; anything else has none. -/
def items : Toml → List Toml
  | array items => items
  | _ => []

/-- What is at a place that has not been set. It is the value of no setting. -/
def unset : Toml := array []

mutual

/-- A value laid over an earlier one. -/
def layer (earlier : Toml) : Toml → Toml
  | table added => table (layerAll earlier.entries added)
  | value => value

/-- Entries laid over earlier ones. -/
def layerAll (earlier : Dictionary Toml) : List (String × Toml) → Dictionary Toml
  | [] => earlier
  | (name, value) :: rest =>
    layerAll (Dictionary.insert earlier name
      (layer ((Dictionary.find? earlier name).getD unset) value)) rest

end

/-- A list that reaches a position, and the position counted from its front. -/
def reach (items : List Toml) (position : Int) : List Toml × Nat :=
  if 0 ≤ position then
    (items ++ List.replicate (position.toNat + 1 - items.length) unset, position.toNat)
  else
    let fromEnd := (-position).toNat
    (List.replicate (fromEnd - items.length) unset ++ items, items.length - fromEnd)

/-- A value laid over what is at a place inside an earlier one. -/
def layerAt (earlier : Toml) (value : Toml) : List SettingStep → Toml
  | [] => layer earlier value
  | .name text :: rest =>
    let inner := (Dictionary.find? earlier.entries text).getD unset
    table (Dictionary.insert earlier.entries text (layerAt inner value rest))
  | .item position :: rest =>
    let (items, position) := reach earlier.items position
    array (items.set position (layerAt (items.getD position unset) value rest))

/-- A document laid over what the documents before it have set. -/
def layerDocument (earlier : Toml) (document : Dictionary Toml) : Toml :=
  document.foldl (fun all (name, value) => layerAt all value (SettingStep.ofName name)) earlier

/-- The settings in the texts of documents, each laid over those before it. A byte order mark may
stand before a document. -/
def layers? (texts : List String) : Option Toml := do
  let documents ← texts.mapM fun text =>
    let body := text.toList
    Toml.read? (String.ofList ((Text.dropStart? ['\ufeff'] body).getD body))
  return documents.foldl layerDocument (table [])

end Toml

end LuauWorkspace
