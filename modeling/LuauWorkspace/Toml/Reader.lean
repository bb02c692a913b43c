import LuauWorkspace.Toml.Lexical
import LuauWorkspace.Toml.Table

/-! # Reading TOML

Values, and documents of lines: a line holds a key with its value, a header or nothing. Arrays and
inline tables may go over several lines and end in a comma, and nest at most `nesting` deep. -/

namespace LuauWorkspace

namespace TomlReader

/-- How deep arrays and inline tables may nest. -/
def nesting : Nat := 80

/-! ## Values -/

/-- Whether a character ends a scalar without quotes. -/
def endsScalar (c : Char) : Bool :=
  isSpace c || c == ',' || c == ']' || c == '\x7d' || c == '#' || c == '='

/-- A scalar without quotes. A space may separate a date from a time. -/
def scalar : TomlReader Toml := do
  let text ← get
  let first := text.takeWhile (!endsScalar ·)
  let rest := text.dropWhile (!endsScalar ·)
  let whole :=
    match rest with
    | ' ' :: after@(c :: _) =>
      if c.isDigit && ((Toml.date? first).any fun (_, left) => left.isEmpty) then
        first ++ ' ' :: after.takeWhile (!endsScalar ·)
      else first
    | _ => first
  let some value := Toml.scalar? whole | failure
  drop whole.length
  return value

/-- The items of an array after those in `before`, which are reversed, and the closing bracket. -/
def items (item : TomlReader Toml) (before : List Toml) : Nat → TomlReader (List Toml)
  | 0 => failure
  | bound + 1 => do
    skipSpace
    if ← eat [']'] then return before.reverse
    let all := (← item) :: before
    skipSpace
    if ← eat [','] then items item all bound
    else
      expect [']']
      return all.reverse

/-- The entries of an inline table added to those in `before`, and the closing brace. -/
def inlineEntries (item : TomlReader Toml) (before : TomlDraft.Entries) :
    Nat → TomlReader TomlDraft.Entries
  | 0 => failure
  | bound + 1 => do
    skipSpace
    if ← eat ['\x7d'] then return before
    let path ← key
    expect ['=']
    skipBlanks
    let some all := TomlDraft.putValue before (← item) path | failure
    skipSpace
    if ← eat [','] then inlineEntries item all bound
    else
      expect ['\x7d']
      return all

/-- A value. -/
def value (depth : Nat) : TomlReader Toml := do
  match ← peek with
  | none => failure
  | some '"' => return .string (← string '"' true)
  | some '\'' => return .string (← string '\'' false)
  | some '[' =>
    match depth with
    | 0 => failure
    | depth + 1 =>
      drop 1
      return .array (← items (value depth) [] (← get).length.succ)
  | some '\x7b' =>
    match depth with
    | 0 => failure
    | depth + 1 =>
      drop 1
      let entries ← inlineEntries (value depth) [] (← get).length.succ
      return (TomlDraft.table .dotted entries).toToml
  | some _ => scalar

/-! ## Documents -/

/-- The lines of a document below the latest header, added to the entries that have been read. -/
def lines (entries : TomlDraft.Entries) (header : List String) :
    Nat → TomlReader TomlDraft.Entries
  | 0 => failure
  | bound + 1 => do
    skipSpace
    match ← get with
    | [] => return entries
    | '[' :: '[' :: rest =>
      set rest
      let path ← key
      expect [']', ']']
      endLine
      let some entries := TomlDraft.openTables entries path | failure
      lines entries path bound
    | '[' :: rest =>
      set rest
      let path ← key
      expect [']']
      endLine
      let some entries := TomlDraft.openTable entries path | failure
      lines entries path bound
    | _ =>
      let path ← key
      expect ['=']
      skipBlanks
      let item ← value nesting
      endLine
      let some entries := TomlDraft.putBelow entries header path item | failure
      lines entries header bound

/-- A whole document. A byte order mark may stand in front. -/
def document : TomlReader TomlDraft.Entries := do
  discard (eat ['\ufeff'])
  lines [] [] (← get).length.succ

end TomlReader

/-- Read a TOML document. -/
def Toml.read? (text : String) : Option (Dictionary Toml) :=
  (TomlReader.document.run text.toList).map fun (entries, _) => TomlDraft.entriesToToml entries

end LuauWorkspace
