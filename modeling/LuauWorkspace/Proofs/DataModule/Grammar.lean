import LuauWorkspace.Json.Lexical
import Mathlib.Data.List.TakeWhile
import Mathlib.Data.Rat.Defs

/-! # The grammar of data expressions

Expressions for data are `nil`, `true` and `false`, numerals that may be negated, strings between
double quotes, and tables of items or of fields. They are read here as the grammar has them, with
white space between any two tokens. -/

namespace LuauWorkspace.DataExpression

/-! ## Strings -/

/-- The character that a letter after a backslash stands for. -/
def escaped? : Char → Option Char
  | '"' => some '"'
  | '\\' => some '\\'
  | 'n' => some '\n'
  | 'r' => some '\r'
  | 't' => some '\t'
  | _ => none

/-- One character of a string, written as itself, by a letter or by its number in braces. A quote, a
backslash and a control character are not written as themselves. -/
def character? : List Char → Option (Char × List Char)
  | '\\' :: 'u' :: '\x7b' :: rest =>
    match rest.span fun c => (JsonReader.hexValue? c).isSome with
    | (digits, '\x7d' :: rest) => do
      let n ← if digits = [] then none else JsonReader.hexNumber? digits
      if n.isValidChar then some (Char.ofNat n, rest) else none
    | _ => none
  | '\\' :: c :: rest => (escaped? c).map (·, rest)
  | c :: rest => if c = '\\' ∨ c = '"' ∨ c.toNat < 0x20 then none else some (c, rest)
  | [] => none

/-- The characters of a string up to its closing quote. -/
def characters? : Nat → List Char → Option (List Char × List Char)
  | _, '"' :: rest => some ([], rest)
  | 0, _ => none
  | bound + 1, text => do
    let (c, rest) ← character? text
    let (more, rest) ← characters? bound rest
    return (c :: more, rest)

/-- A string. -/
def string? : List Char → Option (String × List Char)
  | '"' :: rest => (characters? rest.length rest).map fun (body, rest) => (String.ofList body, rest)
  | _ => none

/-! ## Numerals -/

/-- The number that decimal digits spell, of which there is at least one. -/
def natural? (digits : List Char) : Option Nat :=
  if digits ≠ [] ∧ digits.all Char.isDigit then some (Nat.ofDigitChars 10 digits 0) else none

/-- The number after the letter of an exponent. -/
def exponent? : List Char → Option Int
  | '-' :: digits => (natural? digits).map fun n : Nat => -(n : Int)
  | '+' :: digits => (natural? digits).map fun n : Nat => (n : Int)
  | digits => (natural? digits).map fun n : Nat => (n : Int)

/-- The exponent of a numeral with its letter; none is zero. -/
def power? : List Char → Option Int
  | [] => some 0
  | _ :: text => exponent? text

/-- The float nearest to `± significand * 10 ^ exponent`. -/
def nearest? (negative : Bool) (significand : Nat) (exponent : Int) : Option Binary64 :=
  let value := mkRat (significand * tenTo exponent.toNat) (tenTo (-exponent).toNat)
  Binary64.ofRatio? negative value.num.natAbs value.den

/-- The number of a numeral: an integer, unless there is a fraction or an exponent. -/
def numeral? (negative : Bool) (token : List Char) : Option JsonNumber := do
  let (mantissa, power) := token.span fun c => c ≠ 'e' ∧ c ≠ 'E'
  let (whole, fraction) := mantissa.span (· ≠ '.')
  let n ← natural? whole
  match fraction, power with
  | [], [] => return .integer (if negative then -n else n)
  | [], power => return .float (← nearest? negative n (← power? power))
  | _ :: places, power => do
    let _ ← natural? places
    let significand := Nat.ofDigitChars 10 (whole ++ places) 0
    return .float (← nearest? negative significand ((← power? power) - places.length))

/-- Whether a character can stand in a numeral. -/
def isNumeralChar (c : Char) : Bool :=
  c.isDigit || c == '.' || c == 'e' || c == 'E' || c == '+' || c == '-'

/-- A numeral, which goes on as long as it can. -/
def number? (negative : Bool) (text : List Char) : Option (Json × List Char) :=
  let (token, rest) := text.span isNumeralChar
  (numeral? negative token).map fun number => (.number number, rest)

/-! ## Expressions -/

/-- A text without the white space at its beginning. -/
def skip (text : List Char) : List Char :=
  text.dropWhile fun c => c = ' ' ∨ c = '\t' ∨ c = '\n' ∨ c = '\r'

mutual

/-- An expression. -/
def value? : Nat → List Char → Option (Json × List Char)
  | 0, _ => none
  | bound + 1, text =>
    match skip text with
    | 'n' :: 'i' :: 'l' :: rest => some (.null, rest)
    | 't' :: 'r' :: 'u' :: 'e' :: rest => some (.bool true, rest)
    | 'f' :: 'a' :: 'l' :: 's' :: 'e' :: rest => some (.bool false, rest)
    | '"' :: rest => (string? ('"' :: rest)).map fun (text, rest) => (.string text, rest)
    | '\x7b' :: rest =>
      match skip rest with
      | '\x7d' :: rest => some (.array [], rest)
      | '[' :: rest =>
        (fields? bound ('[' :: rest)).map fun (fields, rest) => (.object fields, rest)
      | rest => (items? bound rest).map fun (items, rest) => (.array items, rest)
    | '-' :: rest => number? true (skip rest)
    | rest => number? false rest

/-- The items of a table and its closing brace. -/
def items? : Nat → List Char → Option (List Json × List Char)
  | 0, _ => none
  | bound + 1, text => do
    let (item, rest) ← value? bound text
    match skip rest with
    | ',' :: rest => do
      let (items, rest) ← items? bound rest
      return (item :: items, rest)
    | '\x7d' :: rest => return ([item], rest)
    | _ => none

/-- The fields of a table and its closing brace. The name of a field is a string in brackets. -/
def fields? : Nat → List Char → Option (List (String × Json) × List Char)
  | 0, _ => none
  | bound + 1, text => do
    let '[' :: rest := skip text | none
    let (name, rest) ← string? (skip rest)
    let ']' :: rest := skip rest | none
    let '=' :: rest := skip rest | none
    let (value, rest) ← value? bound rest
    match skip rest with
    | ',' :: rest => do
      let (fields, rest) ← fields? bound rest
      return ((name, value) :: fields, rest)
    | '\x7d' :: rest => return ([(name, value)], rest)
    | _ => none

end

/-- The value of a text that is one expression from its first character to its last. -/
def read? (text : List Char) : Option Json :=
  match value? (text.length + 1) text with
  | some (value, []) => some value
  | _ => none

end LuauWorkspace.DataExpression
