import LuauWorkspace.Text.Split
import LuauWorkspace.Toml.Basic

/-! # Numbers, dates and times of TOML

A scalar without quotes is read from the whole text between its delimiters. -/

namespace LuauWorkspace.Toml

/-! ## Digits -/

/-- The value of a digit in a base up to sixteen. -/
def digit? (base : Nat) (c : Char) : Option Nat :=
  let n := c.toNat
  let value? :=
    if 48 ≤ n ∧ n ≤ 57 then some (n - 48)
    else if 65 ≤ n ∧ n ≤ 70 then some (n - 55)
    else if 97 ≤ n ∧ n ≤ 102 then some (n - 87)
    else none
  value?.filter (· < base)

/-- The digits of a text in which single underscores may stand between digits. -/
def digits? (base : Nat) : List Char → Option (List Nat)
  | [] => none
  | [c] => (digit? base c).map ([·])
  | c :: '_' :: rest => do return (← digit? base c) :: (← digits? base rest)
  | c :: rest => do return (← digit? base c) :: (← digits? base rest)

/-- The number that digits spell. -/
def numberOf (base : Nat) (digits : List Nat) : Nat := digits.foldl (fun n d => base * n + d) 0

/-- The digits of a decimal integer: no zero stands in front of another digit. -/
def decimal? (text : List Char) : Option (List Nat) :=
  (digits? 10 text).filter fun digits => digits.length = 1 || digits.head? != some 0

/-- A sign and what follows it. -/
def splitSign : List Char → Bool × List Char
  | '+' :: rest => (false, rest)
  | '-' :: rest => (true, rest)
  | text => (false, text)

/-! ## Integers -/

/-- The magnitude of an integer without a sign. -/
def magnitude? : List Char → Option Nat
  | '0' :: 'x' :: rest => (digits? 16 rest).map (numberOf 16)
  | '0' :: 'o' :: rest => (digits? 8 rest).map (numberOf 8)
  | '0' :: 'b' :: rest => (digits? 2 rest).map (numberOf 2)
  | text => (decimal? text).map (numberOf 10)

/-- An integer of 64 bits with its sign. A sign stands before decimal digits only. -/
def integer? (text : List Char) : Option Int := do
  let (negative, rest) := splitSign text
  let magnitude ←
    if rest.length < text.length then (decimal? rest).map (numberOf 10) else magnitude? rest
  let value : Int := if negative then -magnitude else magnitude
  if -(twoTo 63 : Int) ≤ value ∧ value < twoTo 63 then return value else none

/-! ## Floats -/

/-- An exponent: a sign and digits. -/
def exponent? (text : List Char) : Option Int := do
  let (negative, rest) := splitSign text
  let magnitude := numberOf 10 (← digits? 10 rest)
  return if negative then -magnitude else magnitude

/-- The float nearest to `± significand * 10 ^ exponent`; none when it would be infinite. -/
def nearest? (negative : Bool) (significand : Nat) (exponent : Int) : Option Binary64 :=
  let size := (Decimal.digitsOf significand).length
  if significand = 0 ∨ exponent + size < -400 then some ⟨negative, 0, Binary64.leastExponent⟩
  else if 400 < exponent + size then none
  else
    Binary64.ofRatio? negative (significand * tenTo exponent.toNat) (tenTo (-exponent).toNat)

/-- A float: it has a fraction, an exponent or both, or is one of the words for the special
values. -/
def float? (text : List Char) : Option TomlFloat := do
  let (negative, rest) := splitSign text
  if rest = "inf".toList then return .infinite negative
  if rest = "nan".toList then return .notANumber
  let (mantissa, power) := rest.span fun c => c ≠ 'e' ∧ c ≠ 'E'
  let (whole, fraction) := mantissa.span (· ≠ '.')
  if power.isEmpty ∧ fraction.isEmpty then none
  let wholeDigits ← decimal? whole
  let fractionDigits ← if fraction.isEmpty then some [] else digits? 10 (fraction.drop 1)
  let exponent ← if power.isEmpty then some 0 else exponent? (power.drop 1)
  let significand := numberOf 10 (wholeDigits ++ fractionDigits)
  return .finite (← nearest? negative significand (exponent - fractionDigits.length))

/-! ## Dates and times -/

/-- A number of exactly so many digits and what follows it. -/
def fixed? (count : Nat) (text : List Char) : Option (Nat × List Char) := do
  let front := text.take count
  if front.length < count ∨ !front.all Char.isDigit then none
  else return (numberOf 10 (front.map fun c => c.toNat - 48), text.drop count)

/-- The number of days in a month. -/
def daysIn (year month : Nat) : Nat :=
  if month = 2 then
    if year % 4 = 0 ∧ (year % 100 ≠ 0 ∨ year % 400 = 0) then 29 else 28
  else if month = 4 ∨ month = 6 ∨ month = 9 ∨ month = 11 then 30
  else 31

/-- A number in at least so many digits. -/
def padded (count n : Nat) : String :=
  let digits := Decimal.digitsOf n
  String.ofList (List.replicate (count - digits.length) '0' ++ digits)

/-- The text of a date and what follows it. -/
def date? (text : List Char) : Option (String × List Char) := do
  let (year, rest) ← fixed? 4 text
  let (month, rest) ← fixed? 2 (← Text.dropStart? ['-'] rest)
  let (day, rest) ← fixed? 2 (← Text.dropStart? ['-'] rest)
  if month < 1 ∨ 12 < month ∨ day < 1 ∨ daysIn year month < day then none
  else return (s!"{padded 4 year}-{padded 2 month}-{padded 2 day}", rest)

/-- The text of a fraction of a second: at most nine digits, and no zeros at the end. -/
def fractionText (digits : List Char) : String :=
  match ((digits.take 9).reverse.dropWhile (· == '0')).reverse with
  | [] => ""
  | kept => "." ++ String.ofList kept

/-- The text of a time and what follows it. Seconds may be left out. -/
def time? (text : List Char) : Option (String × List Char) := do
  let (hour, rest) ← fixed? 2 text
  let (minute, rest) ← fixed? 2 (← Text.dropStart? [':'] rest)
  if 23 < hour ∨ 59 < minute then none
  let front := s!"{padded 2 hour}:{padded 2 minute}"
  match rest with
  | ':' :: rest =>
    let (second, rest) ← fixed? 2 rest
    if 60 < second then none
    let front := s!"{front}:{padded 2 second}"
    match rest with
    | '.' :: rest =>
      let digits := rest.takeWhile Char.isDigit
      if digits.isEmpty then none
      return (front ++ fractionText digits, rest.dropWhile Char.isDigit)
    | _ => return (front, rest)
  | _ => return (front, rest)

/-- The text of an offset from universal time. An offset of nothing is positive. -/
def offset? : List Char → Option String
  | [] => some ""
  | ['Z'] => some "Z"
  | ['z'] => some "Z"
  | sign :: rest => do
    if sign ≠ '+' ∧ sign ≠ '-' then none
    let (hour, rest) ← fixed? 2 rest
    let (minute, rest) ← fixed? 2 (← Text.dropStart? [':'] rest)
    if 23 < hour ∨ 59 < minute ∨ !rest.isEmpty then none
    let sign := if hour = 0 ∧ minute = 0 then '+' else sign
    return s!"{sign}{padded 2 hour}:{padded 2 minute}"

/-- The canonical text of a date, a time, or both with or without an offset. -/
def moment? (text : List Char) : Option String :=
  match date? text with
  | some (date, []) => some date
  | some (date, separator :: rest) => do
    if separator ≠ 'T' ∧ separator ≠ 't' ∧ separator ≠ ' ' then none
    let (time, rest) ← time? rest
    return date ++ "T" ++ time ++ (← offset? rest)
  | none => do
    let (time, rest) ← time? text
    if rest.isEmpty then return time else none

/-! ## Scalars -/

/-- The value of a scalar without quotes. -/
def scalar? (text : List Char) : Option Toml :=
  if text = "true".toList then some (.boolean true)
  else if text = "false".toList then some (.boolean false)
  else
    (integer? text).map .integer <|> (float? text).map .float <|> (moment? text).map .moment

end LuauWorkspace.Toml
