import LuauWorkspace.Json.Basic
import LuauWorkspace.Text.Quoted

/-! # What can be wrong with a JSON text

A text can break the grammar, or it can be well-formed where another kind of value is wanted. Each
cause has one wording. -/

namespace LuauWorkspace

/-- What was found where another kind of value was wanted. -/
inductive JsonFound where
  | null
  | bool (value : Bool)
  | number (value : JsonNumber)
  | string (text : String)
  | array
  | object

/-- Why a JSON text cannot be read. -/
inductive JsonError where
  | endInValue
  | endInList
  | endInObject
  | endInString
  | expectedValue
  | expectedWord
  | expectedColon
  | expectedListEnd
  | expectedObjectEnd
  | keyNotString
  | trailingComma
  | trailingText
  | badNumber
  | hugeNumber
  | badEscape
  | loneSurrogate
  | cutEscape
  | controlCharacter
  | tooDeep
  | wrongKind (found : JsonFound) (wanted : String)
  | missingField (name : String)
  | repeatedField (name : String)
  | unknownField (name : String) (known : List String)
  | unknownVariant (name : String) (known : List String)
  | tooShort (length : Nat) (wanted : String)

/-- The phrase for what was found. -/
def JsonFound.describe : JsonFound → String
  | null => "null"
  | bool value => s!"boolean `{value}`"
  | number (.integer value) => s!"integer `{value}`"
  | number (.float value) => s!"floating point `{value.toText}`"
  | string text => s!"string {Text.quote text}"
  | array => "sequence"
  | object => "map"

/-- Names between back quotes and separated by commas. -/
def listNames (names : List String) : String :=
  ", ".intercalate (names.map fun name => s!"`{name}`")

/-- The wording of a cause. -/
def JsonError.message : JsonError → String
  | endInValue => "EOF while parsing a value"
  | endInList => "EOF while parsing a list"
  | endInObject => "EOF while parsing an object"
  | endInString => "EOF while parsing a string"
  | expectedValue => "expected value"
  | expectedWord => "expected ident"
  | expectedColon => "expected `:`"
  | expectedListEnd => "expected `,` or `]`"
  | expectedObjectEnd => "expected `,` or `\x7d`"
  | keyNotString => "key must be a string"
  | trailingComma => "trailing comma"
  | trailingText => "trailing characters"
  | badNumber => "invalid number"
  | hugeNumber => "number out of range"
  | badEscape => "invalid escape"
  | loneSurrogate => "lone leading surrogate in hex escape"
  | cutEscape => "unexpected end of hex escape"
  | controlCharacter => "control character (\\u0000-\\u001F) found while parsing a string"
  | tooDeep => "recursion limit exceeded"
  | wrongKind found wanted => s!"invalid type: {found.describe}, expected {wanted}"
  | missingField name => s!"missing field `{name}`"
  | repeatedField name => s!"duplicate field `{name}`"
  | unknownField name known => s!"unknown field `{name}`, expected one of {listNames known}"
  | unknownVariant name known => s!"unknown variant `{name}`, expected one of {listNames known}"
  | tooShort length wanted => s!"invalid length {length}, expected {wanted}"

end LuauWorkspace
