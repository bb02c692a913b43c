import LuauWorkspace.Path.Normal

/-! # The home directory

A leading `~` that stands alone or before a separator is the home directory. Where there is none, a
`~` is the name of an entry like any other. -/

namespace LuauWorkspace

/-- Whether a character separates the segments of a require: both slashes do. -/
def isSeparator (c : Char) : Bool := c == '/' || c == '\\'

namespace Path

/-- A text without the separators at its beginning. -/
def dropSeparators (text : List Char) : List Char := text.dropWhile isSeparator

/-- The text of a directory followed by that of a relative path, with a separator between the two
where one is needed. -/
def joinText (directory below : String) : String :=
  if directory.toList.getLast?.all (· == '/') then directory ++ below
  else directory ++ "/" ++ below

/-- The text of a path in which a leading `~` is replaced by the home directory. The text stays
where there is no home directory. -/
def withHome (home : Option String) (text : String) : String :=
  match text.toList, home with
  | '~' :: rest, some directory =>
    if rest.head?.all isSeparator then joinText directory (String.ofList (dropSeparators rest))
    else text
  | _, _ => text

/-- The path that a written target names: `~` is the home directory, and what is then relative is
taken under `base`. -/
def ofTarget (home : Option String) (base : Path) (target : String) : Path :=
  base.join (ofString (withHome home target))

end Path

end LuauWorkspace
