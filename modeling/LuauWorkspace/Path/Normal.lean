import LuauWorkspace.Path.Basic

/-! # Normal paths

`normalize` takes out every `.` and folds every `..` into the name before it, without asking the
file system. A `..` at the root is dropped, a `..` that opens a relative path stays, and a relative
path of which nothing is left becomes `.`. -/

namespace LuauWorkspace.Path

/-- Put one segment on a reversed list of segments that is already folded. -/
def fold (absolute : Bool) (folded : List Segment) : Segment → List Segment
  | .current => folded
  | .name text => .name text :: folded
  | .up =>
    match folded with
    | .name _ :: rest => rest
    | _ => if absolute then folded else .up :: folded

/-- The folded form of a list of segments. -/
def folds (absolute : Bool) (segments : List Segment) : List Segment :=
  (segments.foldl (fold absolute) []).reverse

/-- The path with `.` taken out and `..` folded. -/
def normalize (p : Path) : Path :=
  let segments := folds p.absolute p.segments
  if segments = [] ∧ p.absolute = false then here else ⟨p.absolute, segments⟩

/-- A path taken under `base` unless it is absolute, in normal form. -/
def absoluteIn (base p : Path) : Path := (base.join p).normalize

theorem absolute_normalize (p : Path) : p.normalize.absolute = p.absolute := by
  simp only [normalize]
  split
  · next h => simp [here, h.2]
  · rfl

end LuauWorkspace.Path
