import LuauWorkspace.Json.Error

/-! # Strings, words and numbers of JSON

A reader takes what it needs from the front of a text and leaves the rest. The first offending
character decides the error. Loops that consume a character in every round carry the length of the
text as their bound. -/

namespace LuauWorkspace

/-- A reader of JSON text. -/
abbrev JsonReader := StateT (List Char) (Except JsonError)

namespace JsonReader

/-- Whether a character is white space between JSON tokens. -/
def isSpace (c : Char) : Bool := c == ' ' || c == '\t' || c == '\n' || c == '\r'

/-- The next character after white space, which is taken; the character itself stays. -/
def peekToken : JsonReader (Option Char) := do
  modify (·.dropWhile isSpace)
  return (← get).head?

/-- The next character, which stays. -/
def peek : JsonReader (Option Char) := return (← get).head?

/-- Take one character. -/
def drop : JsonReader Unit := modify (·.drop 1)

/-- Take the rest of the word `null`, `true` or `false`. -/
def word : List Char → JsonReader Unit
  | [] => pure ()
  | c :: rest => do
    match ← peek with
    | none => throw .endInValue
    | some d => if c = d then drop else throw .expectedWord
    word rest

/-! ## Strings -/

/-- The value of a hexadecimal digit. -/
def hexValue? (c : Char) : Option Nat :=
  if '0' ≤ c ∧ c ≤ '9' then some (c.toNat - '0'.toNat)
  else if 'a' ≤ c ∧ c ≤ 'f' then some (c.toNat - 'a'.toNat + 10)
  else if 'A' ≤ c ∧ c ≤ 'F' then some (c.toNat - 'A'.toNat + 10)
  else none

/-- The number that hexadecimal digits spell. -/
def hexNumber? (digits : List Char) : Option Nat :=
  digits.foldl (fun n? c => do return 16 * (← n?) + (← hexValue? c)) (some 0)

/-- The length of a text in bytes of UTF-8. -/
def byteLength (text : List Char) : Nat := text.foldl (fun length c => length + c.utf8Size) 0

/-- The four hexadecimal digits of an escape. -/
def hexEscape : JsonReader Nat := do
  let text ← get
  if byteLength (text.take 4) < 4 then throw .endInString
  let some n := hexNumber? (text.take 4) | throw .badEscape
  set (text.drop 4)
  return n

/-- The character that a single-letter escape stands for. -/
def escaped? : Char → Option Char
  | '"' => some '"'
  | '\\' => some '\\'
  | '/' => some '/'
  | 'b' => some '\x08'
  | 'f' => some '\x0c'
  | 'n' => some '\n'
  | 'r' => some '\r'
  | 't' => some '\t'
  | _ => none

/-- The character of an escape whose backslash has been taken. Two surrogates spell one character
beyond the basic plane. -/
def escape : JsonReader Char := do
  let some c ← peek | throw .endInString
  drop
  if c ≠ 'u' then
    match escaped? c with
    | some d => return d
    | none => throw .badEscape
  let high ← hexEscape
  if 0xDC00 ≤ high ∧ high ≤ 0xDFFF then throw .loneSurrogate
  if high < 0xD800 ∨ 0xDFFF < high then return Char.ofNat high
  match ← peek with
  | none => throw .endInString
  | some '\\' => drop
  | some _ => throw .cutEscape
  match ← peek with
  | none => throw .endInString
  | some 'u' => drop
  | some _ => throw .cutEscape
  let low ← hexEscape
  if low < 0xDC00 ∨ 0xDFFF < low then throw .loneSurrogate
  return Char.ofNat ((high - 0xD800) * 0x400 + (low - 0xDC00) + 0x10000)

/-- The characters up to the closing quote, which is taken, after those in `before`, which are
reversed. -/
def stringRest (before : List Char) : Nat → JsonReader (List Char)
  | 0 => throw .endInString
  | bound + 1 => do
    let some c ← peek | throw .endInString
    drop
    if c = '"' then return before.reverse
    if c.toNat < 0x20 then throw .controlCharacter
    let d ← if c = '\\' then escape else pure c
    stringRest (d :: before) bound

/-- A string whose opening quote is next. -/
def string : JsonReader String := do
  drop
  return String.ofList (← stringRest [] (← get).length)

/-- Take an escape without asking what it stands for. -/
def skipEscape : JsonReader Unit := do
  let some c ← peek | throw .endInString
  drop
  if c = 'u' then discard hexEscape
  else if (escaped? c).isNone then throw .badEscape

/-- Take the characters up to the closing quote. -/
def skipStringRest : Nat → JsonReader Unit
  | 0 => throw .endInString
  | bound + 1 => do
    let some c ← peek | throw .endInString
    drop
    if c = '"' then return
    if c = '\\' then skipEscape
    else if c.toNat < 0x20 then throw .controlCharacter
    skipStringRest bound

/-- Take a string whose opening quote is next. -/
def skipString : JsonReader Unit := do
  drop
  skipStringRest (← get).length

/-! ## Numbers -/

/-- The value of a decimal digit. -/
def digit? (c : Char) : Option Nat :=
  if '0' ≤ c ∧ c ≤ '9' then some (c.toNat - '0'.toNat) else none

/-- The next character when it is a decimal digit. -/
def peekDigit : JsonReader (Option Nat) := return (← peek).bind digit?

/-- Whether the next character opens an exponent. -/
def peekExponent : JsonReader Bool := return (← peek) == some 'e' || (← peek) == some 'E'

/-- Take all decimal digits that come next. -/
def skipDigits : JsonReader Unit := modify (·.dropWhile (digit? · |>.isSome))

/-- The largest significand that is kept digit by digit. -/
def significandLimit : Nat := twoTo 64 - 1

/-- The largest power of ten that is kept digit by digit. -/
def exponentLimit : Nat := twoTo 31 - 1

/-- The power of ten with the largest exponent that a float holds. -/
def tenToThe (n : Nat) : Option Binary64 := Binary64.ofNat? (tenTo n)

/-- The float `significand * 10 ^ exponent`, rounded after every step: a step multiplies or divides
by at most `10 ^ 308`. -/
def scale : Nat → Binary64 → Int → Option Binary64
  | 0, f, _ => some f
  | bound + 1, f, exponent =>
    if exponent.natAbs ≤ 308 then do
      let power ← tenToThe exponent.natAbs
      if 0 ≤ exponent then f.mul? power else f.div? power
    else if f.isZero then some f
    else if 0 ≤ exponent then none
    else do
      let f ← f.div? (← tenToThe 308)
      scale bound f (exponent + 308)

/-- The float with a sign, a significand and a power of ten. -/
def float (negative : Bool) (significand : Nat) (exponent : Int) : JsonReader JsonNumber :=
  let rounds := exponent.natAbs / 308 + 2
  match (Binary64.ofNat? significand).bind fun f => scale rounds f exponent with
  | some f => return .float { f with negative }
  | none => throw .hugeNumber

/-- The digits of an exponent after the first one. -/
def exponentRest : Nat → Nat → JsonReader (Option Nat)
  | 0, value => return some value
  | bound + 1, value => do
    match ← peekDigit with
    | none => return some value
    | some d =>
      drop
      if exponentLimit < 10 * value + d then return none
      exponentRest bound (10 * value + d)

/-- The exponent part, whose letter is next, and the float that it completes. -/
def withExponent (negative : Bool) (significand : Nat) (start : Int) : JsonReader JsonNumber := do
  drop
  let below := (← peek) == some '-'
  if below || (← peek) == some '+' then drop
  match ← peek with
  | none => throw .endInValue
  | some c =>
    let some first := digit? c | throw .badNumber
    drop
    match ← exponentRest (← get).length first with
    | some value => float negative significand (if below then start - value else start + value)
    | none =>
      if significand ≠ 0 ∧ !below then throw .hugeNumber
      skipDigits
      return .float ⟨negative, 0, Binary64.leastExponent⟩

/-- Finish a float whose fraction is complete. -/
def afterFraction (negative : Bool) (significand : Nat) (exponent : Int) :
    JsonReader JsonNumber := do
  if ← peekExponent then withExponent negative significand exponent
  else float negative significand exponent

/-- The digits after the point. Digits that would exceed the limit of the significand are
dropped. -/
def fraction (negative : Bool) : Nat → Nat → Nat → Int → JsonReader JsonNumber
  | 0, _, _, _ => throw .endInValue
  | bound + 1, taken, significand, exponent => do
    match ← peekDigit with
    | some d =>
      if significandLimit < 10 * significand + d then
        skipDigits
        afterFraction negative significand exponent
      else
        drop
        fraction negative bound (taken + 1) (10 * significand + d) (exponent - 1)
    | none =>
      if taken = 0 then
        match ← peek with
        | some _ => throw .badNumber
        | none => throw .endInValue
      afterFraction negative significand exponent

/-- The digits after the point, which is next. -/
def withFraction (negative : Bool) (significand : Nat) (exponent : Int) :
    JsonReader JsonNumber := do
  drop
  fraction negative ((← get).length + 1) 0 significand exponent

/-- Count the digits of an integer that no longer fit the significand. -/
def longInteger (negative : Bool) (significand : Nat) : JsonReader JsonNumber := do
  let digits := (← get).takeWhile (digit? · |>.isSome)
  skipDigits
  let exponent : Int := digits.length
  if (← peek) == some '.' then withFraction negative significand exponent
  else afterFraction negative significand exponent

/-- What follows the digits of an integer. -/
def afterInteger (negative : Bool) (significand : Nat) : JsonReader JsonNumber := do
  if (← peek) == some '.' then withFraction negative significand 0
  else if ← peekExponent then withExponent negative significand 0
  else if !negative then return .integer significand
  else if significand = 0 ∨ twoTo 63 < significand then float true significand 0
  else return .integer (-(significand : Int))

/-- The digits of an integer after the first one. -/
def integerRest (negative : Bool) : Nat → Nat → JsonReader JsonNumber
  | 0, significand => afterInteger negative significand
  | bound + 1, significand => do
    match ← peekDigit with
    | none => afterInteger negative significand
    | some d =>
      if significandLimit < 10 * significand + d then longInteger negative significand
      else
        drop
        integerRest negative bound (10 * significand + d)

/-- A number, whose sign or first digit is next. -/
def number : JsonReader JsonNumber := do
  let negative := (← peek) == some '-'
  if negative then drop
  match ← peek with
  | none => throw .endInValue
  | some c =>
    let some first := digit? c | throw .badNumber
    drop
    if first = 0 then
      if (← peekDigit).isSome then throw .badNumber
      afterInteger negative 0
    else integerRest negative (← get).length first

/-- Take the digits that must come next. -/
def skipSomeDigits : JsonReader Unit := do
  if (← peekDigit).isNone then throw .badNumber
  skipDigits

/-- Take a number without asking for its value. -/
def skipNumber : JsonReader Unit := do
  if (← peek) == some '-' then drop
  let first ← peekDigit
  if first.isNone then throw .badNumber
  drop
  if first = some 0 then
    if (← peekDigit).isSome then throw .badNumber
  else skipDigits
  if (← peek) == some '.' then
    drop
    skipSomeDigits
  if ← peekExponent then
    drop
    if (← peek) == some '-' || (← peek) == some '+' then drop
    skipSomeDigits

end JsonReader

end LuauWorkspace
