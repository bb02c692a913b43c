import LuauWorkspace.Dictionary
import LuauWorkspace.Path.Home

/-! # Directory aliases

An alias at the beginning of a require stands for a directory. It has to be followed by a separator
or the end of the require, unless it ends in a separator itself; the longest one that fits counts.
-/

namespace LuauWorkspace.Alias

/-- What a require leaves after an alias, or nothing when it does not begin with the alias. -/
def rest? (name require : String) : Option (List Char) :=
  if name = "" then none
  else
    match Text.dropStart? name.toList require.toList with
    | some rest =>
      if rest.head?.all isSeparator || name.toList.getLast?.any isSeparator then some rest
      else none
    | none => none

/-- The longest alias at the beginning of a require, with its target and what it leaves. -/
def longest? (aliases : Dictionary String) (require : String) :
    Option (String × String × List Char) :=
  aliases.foldl (fun best (name, target) =>
    match rest? name require with
    | none => best
    | some rest =>
      match best with
      | some (_, _, shorter) =>
        if shorter.length < rest.length then best else some (name, target, rest)
      | none => some (name, target, rest)) none

/-- The path that a require with an alias names. A target is a directory under `root` unless it is
absolute, and the separators after an alias do not count. -/
def resolve? (home : Option String) (root : Path) (aliases : Dictionary String) (require : String) :
    Option Path := do
  let (_, target, rest) ← longest? aliases require
  let below := String.ofList (Path.dropSeparators rest)
  return Path.absoluteIn (Path.ofTarget home root target) (Path.ofString below)

end LuauWorkspace.Alias
