import LuauWorkspace.Json.Basic
import LuauWorkspace.Text.Quoted

/-! # Writing JSON

A value goes over several lines: every item and every member stands on a line of its own, two spaces
further in than what holds it. -/

namespace LuauWorkspace

/-- The spelling of a character between quotes: quotes, backslashes and control characters are
escaped. -/
def Json.escapeChar (c : Char) : List Char :=
  match c with
  | '"' => ['\\', '"']
  | '\\' => ['\\', '\\']
  | '\n' => ['\\', 'n']
  | '\r' => ['\\', 'r']
  | '\t' => ['\\', 't']
  | '\x08' => ['\\', 'b']
  | '\x0c' => ['\\', 'f']
  | c =>
    if c.toNat < 0x20 then
      let digits := Text.hexDigits c.toNat
      ['\\', 'u'] ++ List.replicate (4 - digits.length) '0' ++ digits
    else [c]

/-- A text between quotes. -/
def Json.quote (text : String) : String :=
  "\"" ++ String.ofList (text.toList.flatMap escapeChar) ++ "\""

/-- The beginning of a line that is so many levels in. -/
def Json.margin (level : Nat) : String := "\n" ++ String.ofList (List.replicate (2 * level) ' ')

/-- Parts on lines of their own between an opening and a closing character. -/
def Json.block (level : Nat) (opening closing : Char) (parts : List String) : String :=
  if parts.isEmpty then String.ofList [opening, closing]
  else
    let inner := parts.map (margin (level + 1) ++ ·)
    opening.toString ++ ",".intercalate inner ++ margin level ++ closing.toString

mutual

/-- The text of a value that is so many levels in. -/
def Json.write (level : Nat) : Json → String
  | .null => "null"
  | .bool value => if value then "true" else "false"
  | .number value => value.toText
  | .string text => Json.quote text
  | .array items => Json.block level '[' ']' (Json.writeAll (level + 1) items)
  | .object members => Json.block level '\x7b' '\x7d' (Json.writeMembers (level + 1) members)

/-- The texts of items. -/
def Json.writeAll (level : Nat) : List Json → List String
  | [] => []
  | item :: items => Json.write level item :: Json.writeAll level items

/-- The texts of members. -/
def Json.writeMembers (level : Nat) : List (String × Json) → List String
  | [] => []
  | (name, value) :: members =>
    (Json.quote name ++ ": " ++ Json.write level value) :: Json.writeMembers level members

end

/-- The text of a value. -/
def Json.toText (value : Json) : String := Json.write 0 value

end LuauWorkspace
