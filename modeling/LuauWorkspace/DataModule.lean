import LuauWorkspace.Json.Reader
import LuauWorkspace.Text.Quoted
import LuauWorkspace.Text.Split

/-! # Data modules

A JSON file can stand where a module is wanted. Its module returns the same data, written as one
expression: tables for lists and objects, `nil` for `null`. -/

namespace LuauWorkspace.DataModule

/-- Whether a character is a control character. -/
def isControl (c : Char) : Bool := c.toNat < 0x20 || (0x7F ≤ c.toNat && c.toNat ≤ 0x9F)

/-- A character as it appears in a string. -/
def stringChar (c : Char) : List Char :=
  if c = '"' ∨ c = '\\' then ['\\', c]
  else if c = '\n' then ['\\', 'n']
  else if c = '\r' then ['\\', 'r']
  else if c = '\t' then ['\\', 't']
  else if isControl c then ['\\', 'u', '\x7b'] ++ Text.hexDigits c.toNat ++ ['\x7d']
  else [c]

/-- A text as a string. -/
def string (text : String) : List Char := '"' :: text.toList.flatMap stringChar ++ ['"']

/-- A table of items, each written as it is. -/
def table (items : List (List Char)) : List Char :=
  if items.isEmpty then ['\x7b', '\x7d']
  else ['\x7b', ' '] ++ Text.joinWith [',', ' '] items ++ [' ', '\x7d']

mutual

/-- A value as an expression. -/
def expression : Json → List Char
  | .null => "nil".toList
  | .bool value => (if value then "true" else "false").toList
  | .number value => value.toText.toList
  | .string text => string text
  | .array items => table (itemExpressions items)
  | .object members => table (memberExpressions members)

/-- The items of a list as expressions. -/
def itemExpressions : List Json → List (List Char)
  | [] => []
  | item :: items => expression item :: itemExpressions items

/-- The members of an object as the fields of a table. -/
def memberExpressions : List (String × Json) → List (List Char)
  | [] => []
  | (name, value) :: members =>
    ('[' :: string name ++ "] = ".toList ++ expression value) :: memberExpressions members

end

/-- The module that returns a value. -/
def ofJson (value : Json) : String :=
  String.ofList ("--!strict\nreturn ".toList ++ expression value ++ ['\n'])

/-- The module that returns what a JSON text holds. -/
def ofText (text : String) : Except JsonError String := (Json.read text).map ofJson

end LuauWorkspace.DataModule
