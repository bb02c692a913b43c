/-! # Percent encoding

A byte that may not stand for itself is written as `%` and two hexadecimal digits. Which characters
have to be encoded depends on the place; a character outside ASCII always is, byte by byte. -/

namespace LuauWorkspace.Percent

/-- The upper-case hexadecimal digit of a number below sixteen. -/
def upperHex (n : Nat) : Char := if n < 10 then Char.ofNat (48 + n) else Char.ofNat (55 + n)

/-- A byte as `%` and two digits. -/
def encodeByte (b : UInt8) : List Char := ['%', upperHex (b.toNat / 16), upperHex (b.toNat % 16)]

/-- A text in which the characters of a class, and all outside ASCII, are encoded. -/
def encode (reserved : Char → Bool) (text : List Char) : List Char :=
  text.flatMap fun c =>
    if reserved c || 0x7F ≤ c.toNat then (String.utf8EncodeChar c).flatMap encodeByte else [c]

/-- The value of a hexadecimal digit of either case. -/
def hexValue? (c : Char) : Option Nat :=
  let n := c.toNat
  if 48 ≤ n ∧ n ≤ 57 then some (n - 48)
  else if 65 ≤ n ∧ n ≤ 70 then some (n - 55)
  else if 97 ≤ n ∧ n ≤ 102 then some (n - 87)
  else none

/-- The byte that the two digits at the beginning of a text spell, and what follows them. -/
def decodeByte? : List Char → Option (UInt8 × List Char)
  | high :: low :: rest => do
    return (UInt8.ofNat (16 * (← hexValue? high) + (← hexValue? low)), rest)
  | _ => none

theorem length_of_decodeByte? {text rest : List Char} {b : UInt8}
    (h : decodeByte? text = some (b, rest)) : rest.length < text.length := by
  match text, h with
  | high :: low :: after, h =>
    simp only [decodeByte?, Option.bind_eq_bind, Option.bind_eq_some_iff, Option.pure_def,
      Option.some.injEq, Prod.mk.injEq] at h
    obtain ⟨_, _, _, _, _, rfl⟩ := h
    simp only [List.length_cons]
    omega

/-- The bytes of a text in which `%` and two hexadecimal digits stand for one byte and every other
character for its own. -/
def decode : List Char → List UInt8
  | [] => []
  | c :: rest =>
    match _h : if c = '%' then decodeByte? rest else none with
    | some (b, after) => b :: decode after
    | none => String.utf8EncodeChar c ++ decode rest
termination_by text => text.length
decreasing_by
  · have := length_of_decodeByte? (Option.ite_none_right_eq_some.1 _h).2
    simp only [List.length_cons]
    omega
  · simp

/-- The text that the decoded bytes spell, when they spell one. -/
def decodeText? (text : List Char) : Option String :=
  String.fromUTF8? ⟨(decode text).toArray⟩

/-! ## Places -/

/-- Control characters below the space. -/
def isControl (c : Char) : Bool := c.toNat < 0x20

/-- What is encoded in a fragment. -/
def inFragment (c : Char) : Bool :=
  isControl c || c == ' ' || c == '"' || c == '<' || c == '>' || c == '`'

/-- What is encoded in a path that is already cut into segments. -/
def inPath (c : Char) : Bool :=
  inFragment c || c == '#' || c == '?' || c == '\x7b' || c == '\x7d'

/-- What is encoded in a segment made from a file name. -/
def inFileName (c : Char) : Bool := inPath c || c == '/' || c == '%' || c == '\\'

/-- What is encoded in a query. -/
def inQuery (c : Char) : Bool :=
  isControl c || c == ' ' || c == '"' || c == '#' || c == '<' || c == '>'

/-- What is encoded in the query of a scheme with a known meaning. -/
def inSpecialQuery (c : Char) : Bool := inQuery c || c == '\''

/-- What is encoded in a user name or password. -/
def inUserInfo (c : Char) : Bool :=
  inPath c || c == '/' || c == ':' || c == ';' || c == '=' || c == '@' || c == '[' || c == '\\' ||
    c == ']' || c == '^' || c == '|'

end LuauWorkspace.Percent
