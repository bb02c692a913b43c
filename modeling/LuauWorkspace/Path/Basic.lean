import LuauWorkspace.Text.Split

/-! # Paths

A path is a list of segments with a mark that tells whether it starts at the root. Reading a text
drops what does not matter: repeated and trailing separators, and every `.` but one that opens a
relative path. Two texts that read as the same path name the same file. -/

namespace LuauWorkspace

/-- One step of a path: stay (`.`), go up (`..`) or enter an entry by its name. -/
inductive Segment where
  | current
  | up
  | name (text : String)
deriving DecidableEq, Inhabited

/-- A path; `absolute` when it starts at the root of the file system. -/
structure Path where
  absolute : Bool
  segments : List Segment
deriving DecidableEq, Inhabited

namespace Segment

/-- The spelling of a segment. -/
def toString : Segment → String
  | current => "."
  | up => ".."
  | name text => text

/-- The segment that a piece between separators stands for. An empty piece and `.` stand for
nothing. -/
def ofPiece? : List Char → Option Segment
  | [] => none
  | ['.'] => none
  | ['.', '.'] => some up
  | piece => some (name (String.ofList piece))

end Segment

namespace Path

/-- The empty relative path. -/
def empty : Path := ⟨false, []⟩

/-- The root of the file system. -/
def root : Path := ⟨true, []⟩

/-- The relative path `.`. -/
def here : Path := ⟨false, [.current]⟩

/-- Read a path from the characters of its text. -/
def ofChars (text : List Char) : Path :=
  match Text.splitOn (· == '/') text with
  | ['.'] :: pieces => ⟨false, .current :: pieces.filterMap Segment.ofPiece?⟩
  | pieces => ⟨text.head? == some '/', pieces.filterMap Segment.ofPiece?⟩

/-- Read a path from its text. -/
def ofString (text : String) : Path := ofChars text.toList

/-- The text of a path: its segments with one separator between every two. -/
def toString (p : Path) : String :=
  (if p.absolute then "/" else "") ++ "/".intercalate (p.segments.map Segment.toString)

instance : ToString Path := ⟨toString⟩

/-- `base` followed by `p`; an absolute `p` stands for itself. -/
def join (base p : Path) : Path :=
  if p.absolute then p
  else if base = empty then p
  else ⟨base.absolute, base.segments ++ p.segments.filter (· ≠ .current)⟩

/-- `base` followed by one named entry. -/
def child (base : Path) (entry : String) : Path := ⟨base.absolute, base.segments ++ [.name entry]⟩

/-- The path without its last segment; the root and the empty path have no parent. -/
def parent? (p : Path) : Option Path :=
  if p.segments = [] then none else some ⟨p.absolute, p.segments.dropLast⟩

/-- The name that ends a path; none when the path ends in `.`, `..` or at the root. -/
def fileName? (p : Path) : Option String :=
  match p.segments.getLast? with
  | some (.name text) => some text
  | _ => none

/-- Whether `p` is `base` or begins with all of it. Every path begins with the empty one. -/
def startsWith (p base : Path) : Bool :=
  base = empty || (p.absolute == base.absolute && base.segments.isPrefixOf p.segments)

/-! ## Parents -/

theorem parent?_length {p q : Path} (h : p.parent? = some q) :
    q.segments.length < p.segments.length := by
  simp only [parent?, Option.ite_none_left_eq_some, Option.some.injEq] at h
  obtain ⟨hne, rfl⟩ := h
  have : p.segments.length ≠ 0 := fun h0 => hne (List.length_eq_zero_iff.1 h0)
  simp only [List.length_dropLast]
  omega

end Path

end LuauWorkspace
