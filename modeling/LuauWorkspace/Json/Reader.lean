import LuauWorkspace.Json.Lexical

/-! # Reading JSON

Values, lists and objects. A list and an object hand each entry to a reader of the caller, so that a
text which is wanted as something else than a plain value fails at its first unwanted token.
Containers nest at most `nesting` deep. -/

namespace LuauWorkspace

namespace JsonReader

/-- How deep lists and objects may nest. -/
def nesting : Nat := 127

/-! ## Lists and objects -/

/-- Whether a list has one more item; the comma before it is taken. -/
def moreItems (first : Bool) : JsonReader Bool := do
  match ← peekToken with
  | none => throw .endInList
  | some ']' => return false
  | some c =>
    if first then return true
    if c ≠ ',' then throw .expectedListEnd
    drop
    match ← peekToken with
    | none => throw .endInValue
    | some ']' => throw .trailingComma
    | some _ => return true

/-- Take the bracket that closes a list. -/
def closeList : JsonReader Unit := do
  match ← peekToken with
  | none => throw .endInList
  | some ']' => drop
  | some ',' =>
    drop
    if (← peekToken) == some ']' then throw .trailingComma else throw .trailingText
  | some _ => throw .trailingText

/-- The items of a list after those in `before`, which are reversed. -/
def items {α : Type} (item : JsonReader α) (before : List α) : Nat → JsonReader (List α)
  | 0 => throw .endInList
  | bound + 1 => do
    if ← moreItems before.isEmpty then items item ((← item) :: before) bound
    else return before.reverse

/-- A list whose opening bracket is next. -/
def list {α : Type} (item : JsonReader α) : JsonReader (List α) := do
  drop
  let all ← items item [] (← get).length.succ
  closeList
  return all

/-- Whether an object has one more member, whose name is then next; the comma before it is
taken. -/
def moreMembers (first : Bool) : JsonReader Bool := do
  match ← peekToken with
  | none => throw .endInObject
  | some '\x7d' => return false
  | some c =>
    if first then
      if c ≠ '"' then throw .keyNotString
      return true
    if c ≠ ',' then throw .expectedObjectEnd
    drop
    match ← peekToken with
    | none => throw .endInValue
    | some '"' => return true
    | some '\x7d' => throw .trailingComma
    | some _ => throw .keyNotString

/-- Take the brace that closes an object. -/
def closeObject : JsonReader Unit := do
  match ← peekToken with
  | none => throw .endInObject
  | some '\x7d' => drop
  | some ',' => throw .trailingComma
  | some _ => throw .trailingText

/-- Take the colon after the name of a member. -/
def colon : JsonReader Unit := do
  match ← peekToken with
  | none => throw .endInObject
  | some ':' => drop
  | some _ => throw .expectedColon

/-- The members of an object, put one after the other into a state. -/
def members {σ : Type} (member : σ → String → JsonReader σ) (state : σ) (first : Bool) :
    Nat → JsonReader σ
  | 0 => throw .endInObject
  | bound + 1 => do
    if ← moreMembers first then members member (← member state (← string)) false bound
    else return state

/-- An object whose opening brace is next. `member` gets the name of a member and takes the rest of
it, colon included. -/
def object {σ : Type} (member : σ → String → JsonReader σ) (start : σ) : JsonReader σ := do
  drop
  let state ← members member start true (← get).length.succ
  closeObject
  return state

/-! ## Values -/

/-- Any value. -/
def value (depth : Nat) : JsonReader Json := do
  match ← peekToken with
  | none => throw .endInValue
  | some 'n' => drop; word "ull".toList; return .null
  | some 't' => drop; word "rue".toList; return .bool true
  | some 'f' => drop; word "alse".toList; return .bool false
  | some '"' => return .string (← string)
  | some '[' =>
    match depth with
    | 0 => throw .tooDeep
    | depth + 1 => return .array (← list (value depth))
  | some '\x7b' =>
    match depth with
    | 0 => throw .tooDeep
    | depth + 1 =>
      return .object (← object (fun all name => do
        colon
        return Dictionary.insert all name (← value depth)) [])
  | some c =>
    if c = '-' ∨ (digit? c).isSome then return .number (← number) else throw .expectedValue

/-- Take one value without keeping it. Only its grammar is checked, at any depth. -/
def skipValue : Nat → JsonReader Unit
  | 0 => throw .endInValue
  | bound + 1 => do
    match ← peekToken with
    | none => throw .endInValue
    | some 'n' => drop; word "ull".toList
    | some 't' => drop; word "rue".toList
    | some 'f' => drop; word "alse".toList
    | some '"' => skipString
    | some '[' =>
      drop
      match ← peekToken with
      | none => throw .endInList
      | some ']' => drop
      | some _ => skipItems bound
    | some '\x7b' =>
      drop
      match ← peekToken with
      | none => throw .endInObject
      | some '\x7d' => drop
      | some _ => skipMembers bound
    | some c => if c = '-' ∨ (digit? c).isSome then skipNumber else throw .expectedValue
where
  /-- Take the items of a list and the bracket that closes it. -/
  skipItems : Nat → JsonReader Unit
    | 0 => throw .endInList
    | bound + 1 => do
      skipValue bound
      match ← peekToken with
      | none => throw .endInList
      | some ']' => drop
      | some ',' => drop; skipItems bound
      | some _ => throw .expectedListEnd
  /-- Take the members of an object and the brace that closes it. -/
  skipMembers : Nat → JsonReader Unit
    | 0 => throw .endInObject
    | bound + 1 => do
      match ← peekToken with
      | none => throw .endInObject
      | some '"' => skipString
      | some _ => throw .keyNotString
      colon
      skipValue bound
      match ← peekToken with
      | none => throw .endInObject
      | some '\x7d' => drop
      | some ',' => drop; skipMembers bound
      | some _ => throw .expectedObjectEnd

/-- Take one value without keeping it. -/
def skip : JsonReader Unit := do skipValue (2 * (← get).length + 2)

/-- Read a whole text: nothing but white space may follow. -/
def run {α : Type} (reader : JsonReader α) (text : String) : Except JsonError α := do
  let (result, rest) ← StateT.run reader text.toList
  if rest.all isSpace then return result else throw .trailingText

end JsonReader

/-- Read a text as one JSON value. -/
def Json.read (text : String) : Except JsonError Json :=
  JsonReader.run (JsonReader.value JsonReader.nesting) text

end LuauWorkspace
