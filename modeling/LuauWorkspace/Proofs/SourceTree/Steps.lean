import LuauWorkspace.Proofs.SourceTree.Walk

/-! # Steps in the tree

A relative require takes one step after another, to the parent of an instance or to its first child
with a name. Written as pieces, the steps lead through the index as they lead through the tree. -/

namespace LuauWorkspace

/-! ## Moves -/

/-- One step of a relative require. -/
inductive Move where
  /-- To the parent. -/
  | up
  /-- To the child with a name. -/
  | down (name : String)
deriving DecidableEq

namespace Move

/-- How a step is written. -/
def spelling : Move → String
  | up => ".."
  | down name => name

/-- A name can be written as one piece of a require and is not read as something else. -/
def IsProper : Move → Prop
  | up => True
  | down name => IsEntryName name ∧ '\\' ∉ name.toList

instance : DecidablePred IsProper
  | up => isTrue trivial
  | down name => inferInstanceAs (Decidable (IsEntryName name ∧ '\\' ∉ name.toList))

/-- The segment that a step is written as. -/
def segment : Move → Segment
  | up => .up
  | down name => .name name

theorem ofPiece?_spelling {move : Move} (h : move.IsProper) :
    Segment.ofPiece? move.spelling.toList = some move.segment := by
  cases move with
  | up => rfl
  | down name => exact ofPiece?_of_isEntryName h.1

end Move

namespace Location

/-- Where one step leads. -/
def follow? (location : Location) : Move → Option Location
  | .up => location.parent?
  | .down name => location.child? name

theorem take?_segment (location : Location) (move : Move) :
    location.take? move.segment = location.follow? move := by
  cases move with
  | up => rfl
  | down name => rfl

end Location

namespace TreeIndex

open SourceTree

variable {directory : String} {tree : SourceTree} {location : Location} {entry : TreeEntry}

/-- Pieces that stand for no step lead nowhere, and those that are steps lead where they do. -/
theorem rel_foldlM_spelling (h : Represents directory tree location entry)
    {idle : List (List Char)} (hidle : ∀ piece ∈ idle, piece = [] ∨ piece = ['.'])
    {moves : List Move} (hmoves : ∀ move ∈ moves, move.IsProper) :
    Option.Rel (Represents directory tree) (moves.foldlM Location.follow? location)
      ((idle ++ moves.map (·.spelling.toList)).foldlM (ofTree directory tree).follow? entry) := by
  have hnone : idle.filterMap Segment.ofPiece? = [] := by
    refine List.filterMap_eq_nil_iff.mpr fun piece hpiece => ?_
    rcases hidle piece hpiece with rfl | rfl
    · rfl
    · rfl
  have hsegments : (moves.map (·.spelling.toList)).filterMap Segment.ofPiece? =
      moves.map Move.segment := by
    rw [List.filterMap_map, ← List.filterMap_eq_map]
    exact List.filterMap_congr fun move hmove => Move.ofPiece?_spelling (hmoves move hmove)
  have hrel := rel_foldlM_follow? h (idle ++ moves.map (·.spelling.toList))
  rw [List.filterMap_append, hnone, hsegments, List.nil_append, List.foldlM_map] at hrel
  simp only [Location.take?_segment] at hrel
  exact hrel

end TreeIndex

end LuauWorkspace
