import LuauWorkspace.Toml.Scalar

/-! # Strings, keys and blanks of TOML

A reader takes what it needs from the front of a text, or fails; all failures are alike. Loops that
consume a character in every round carry the length of the text as their bound. -/

namespace LuauWorkspace

/-- A reader of TOML text. -/
abbrev TomlReader := StateT (List Char) Option

namespace TomlReader

/-- The next character, which stays. -/
def peek : TomlReader (Option Char) := return (← get).head?

/-- Take so many characters. -/
def drop (count : Nat) : TomlReader Unit := modify (·.drop count)

/-- Take the given text if it comes next, and tell whether it did. -/
def eat (expected : List Char) : TomlReader Bool := do
  match Text.dropStart? expected (← get) with
  | some rest => set rest; return true
  | none => return false

/-- Take the given text, which has to come next. -/
def expect (expected : List Char) : TomlReader Unit := do
  unless ← eat expected do failure

/-! ## Blanks -/

/-- Take spaces and tabs. -/
def skipBlanks : TomlReader Unit := modify (·.dropWhile fun c => c == ' ' || c == '\t')

/-- Whether a character may stand in a comment or in a string without escapes. -/
def isPlain (c : Char) : Bool := c == '\t' || (0x20 ≤ c.toNat && c.toNat ≠ 0x7F)

/-- Take a comment if one comes next, up to the end of its line. -/
def skipComment : TomlReader Unit := do
  if (← peek) == some '#' then modify (·.dropWhile isPlain)

/-- Take the end of a line if it comes next. -/
def eatLineEnd : TomlReader Bool := do return (← eat ['\n']) || (← eat ['\r', '\n'])

/-- Take blanks, comments and line ends. -/
def skipLines : Nat → TomlReader Unit
  | 0 => pure ()
  | bound + 1 => do
    skipBlanks
    skipComment
    if ← eatLineEnd then skipLines bound

/-- Take all blanks, comments and line ends that come next. -/
def skipSpace : TomlReader Unit := do skipLines (← get).length.succ

/-- Take what may stand between a value and the next line. -/
def endLine : TomlReader Unit := do
  skipBlanks
  skipComment
  unless (← get).isEmpty do
    unless ← eatLineEnd do failure

/-! ## Strings -/

/-- The character that so many hexadecimal digits stand for. -/
def codePoint (count : Nat) : TomlReader Char := do
  let digits := (← get).take count
  let some numbers := digits.mapM (Toml.digit? 16) | failure
  if digits.length < count then failure
  let n := Toml.numberOf 16 numbers
  if h : n.isValidChar then
    drop count
    return Char.ofNatAux n h
  else failure

/-- The character of an escape whose backslash has been taken. -/
def escape : TomlReader Char := do
  let some c ← peek | failure
  drop 1
  match c with
  | 'b' => return '\x08'
  | 't' => return '\t'
  | 'n' => return '\n'
  | 'f' => return '\x0c'
  | 'r' => return '\r'
  | 'e' => return '\x1b'
  | '"' => return '"'
  | '\\' => return '\\'
  | 'x' => codePoint 2
  | 'u' => codePoint 4
  | 'U' => codePoint 8
  | _ => failure

/-- The rest of a string on one line, after the characters in `before`, which are reversed. -/
def lineString (quote : Char) (escapes : Bool) (before : List Char) : Nat → TomlReader String
  | 0 => failure
  | bound + 1 => do
    let some c ← peek | failure
    drop 1
    if c = quote then return String.ofList before.reverse
    if !isPlain c then failure
    let d ← if escapes ∧ c = '\\' then escape else pure c
    lineString quote escapes (d :: before) bound

/-- Whether a backslash that has been taken ends its line, blanks aside. -/
def endsLine : TomlReader Bool := do
  match (← get).dropWhile fun c => c == ' ' || c == '\t' with
  | '\n' :: _ => return true
  | '\r' :: '\n' :: _ => return true
  | _ => return false

/-- Whether a character is a blank or belongs to a line end. -/
def isSpace (c : Char) : Bool := c == ' ' || c == '\t' || c == '\n' || c == '\r'

/-- The rest of a string on several lines. Up to two quotes may stand before the closing ones. -/
def textString (quote : Char) (escapes : Bool) (before : List Char) : Nat → TomlReader String
  | 0 => failure
  | bound + 1 => do
    let run := (← get).takeWhile (· == quote)
    if 3 ≤ run.length then
      if 5 < run.length then failure
      drop run.length
      return String.ofList (before.reverse ++ run.drop 3)
    if ← eatLineEnd then textString quote escapes ('\n' :: before) bound
    else
      let some c ← peek | failure
      drop 1
      if !isPlain c then failure
      if escapes ∧ c = '\\' then
        if ← endsLine then
          modify (·.dropWhile isSpace)
          textString quote escapes before bound
        else textString quote escapes ((← escape) :: before) bound
      else textString quote escapes (c :: before) bound

/-- A string in the given quotes, which come next. A line end right after three quotes does not
count. -/
def string (quote : Char) (escapes : Bool) : TomlReader String := do
  if ← eat [quote, quote, quote] then
    discard eatLineEnd
    textString quote escapes [] (← get).length.succ
  else
    drop 1
    lineString quote escapes [] (← get).length

/-! ## Keys -/

/-- Whether a character may stand in a key without quotes. -/
def isBare (c : Char) : Bool := c.isAlphanum || c == '_' || c == '-'

/-- One part of a key. -/
def keyPart : TomlReader String := do
  match ← peek with
  | some '"' => drop 1; lineString '"' true [] (← get).length
  | some '\'' => drop 1; lineString '\'' false [] (← get).length
  | _ =>
    let name := (← get).takeWhile isBare
    if name.isEmpty then failure
    drop name.length
    return String.ofList name

/-- The parts of a key after those in `before`, which are reversed. -/
def keyParts (before : List String) : Nat → TomlReader (List String)
  | 0 => failure
  | bound + 1 => do
    skipBlanks
    let part ← keyPart
    skipBlanks
    if ← eat ['.'] then keyParts (part :: before) bound else return (part :: before).reverse

/-- A key: parts with points between them. -/
def key : TomlReader (List String) := do keyParts [] (← get).length.succ

end TomlReader

end LuauWorkspace
