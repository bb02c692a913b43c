import LuauWorkspace.Json.Reader

/-! # Reading JSON as data of a known shape

Readers for one kind of value each. A value of another kind is read just far enough to name it in
the error. -/

namespace LuauWorkspace.JsonReader

variable {α : Type}

/-- Fail at the value that comes next, which is not of the wanted kind. -/
def mismatch (wanted : String) : JsonReader α := do
  let found : JsonFound ←
    match ← peekToken with
    | none => throw .endInValue
    | some 'n' => drop; word "ull".toList; pure .null
    | some 't' => drop; word "rue".toList; pure (.bool true)
    | some 'f' => drop; word "alse".toList; pure (.bool false)
    | some '"' => .string <$> string
    | some '[' => pure .array
    | some '\x7b' => pure .object
    | some c =>
      if c = '-' ∨ (digit? c).isSome then .number <$> number else throw .expectedValue
  throw (.wrongKind found wanted)

/-- A string. -/
def text (wanted : String) : JsonReader String := do
  if (← peekToken) == some '"' then string else mismatch wanted

/-- A boolean. -/
def boolean : JsonReader Bool := do
  match ← peekToken with
  | some 't' => drop; word "rue".toList; return true
  | some 'f' => drop; word "alse".toList; return false
  | _ => mismatch "a boolean"

/-- A value that may be `null`. -/
def optional (present : JsonReader α) : JsonReader (Option α) := do
  if (← peekToken) == some 'n' then
    drop
    word "ull".toList
    return none
  else return some (← present)

/-- A list. -/
def listOf (depth : Nat) (item : Nat → JsonReader α) : JsonReader (List α) := do
  if (← peekToken) == some '[' then
    match depth with
    | 0 => throw .tooDeep
    | depth + 1 => list (item depth)
  else mismatch "a sequence"

/-- An object with any names; the last of several members with one name counts. -/
def dictionaryOf (depth : Nat) (entry : JsonReader α) : JsonReader (Dictionary α) := do
  if (← peekToken) == some '\x7b' then
    match depth with
    | 0 => throw .tooDeep
    | _ + 1 => object (fun all name => do
        colon
        return Dictionary.insert all name (← entry)) []
  else mismatch "a map"

/-- One of several named variants, written as its name or as an object that holds `null` under its
name. -/
def oneOf (depth : Nat) (variants : List (String × α)) : JsonReader α := do
  let choose (name : String) : JsonReader α :=
    match variants.lookup name with
    | some variant => pure variant
    | none => throw (.unknownVariant name (variants.map (·.1)))
  match ← peekToken with
  | none => throw .endInValue
  | some '"' => choose (← string)
  | some '\x7b' =>
    if depth = 0 then throw .tooDeep
    drop
    let variant ← choose (← text "variant identifier")
    colon
    if (← peekToken) == some 'n' then
      drop
      word "ull".toList
    else mismatch "unit"
    match ← peekToken with
    | some '\x7d' => drop; return variant
    | some _ => throw .expectedValue
    | none => throw .endInObject
  | some _ => throw .expectedValue

/-- The value of a field that may be named once. -/
def once (name : String) (earlier : Option α) (field : JsonReader α) : JsonReader (Option α) := do
  if earlier.isSome then throw (.repeatedField name)
  colon
  return some (← field)

/-- The next item of a list that stands for a record, or `absent` when the list ends. -/
def itemOr (absent : JsonReader α) (first : Bool) (item : JsonReader α) : JsonReader α := do
  if ← moreItems first then item else absent

end LuauWorkspace.JsonReader
