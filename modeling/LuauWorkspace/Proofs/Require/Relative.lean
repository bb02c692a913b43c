import LuauWorkspace.Proofs.Require.Meaning
import LuauWorkspace.Proofs.SourceTree.Steps

/-! # Steps as strings and as walks

The steps of a relative require can be written as a string, with separators between them, and as a
walk, which indexes one instance after another. Both lead through the same instances. -/

namespace LuauWorkspace

open VirtualName

namespace Move

/-! ## Strings -/

/-- Steps that can be written as a string: each step is proper, and the last one is no name that
would lose an extension. -/
structure IsWritable (moves : List Move) : Prop where
  isProper : ∀ move ∈ moves, move.IsProper
  not_extended : ∀ name, moves.getLast? = some (.down name) →
    ∀ extension ∈ Path.luauExtensions, ¬('.' :: extension.toList) <:+ name.toList

/-- Steps with separators between them. -/
def joined (moves : List Move) : String := "/".intercalate (moves.map spelling)

/-- The strings that steps are written as: with or without `./` before them and, after a name, with
or without the extension of a script. -/
inductive Spells (moves : List Move) : String → Prop where
  | plain {start : String} (hstart : start ∈ ["", "./"]) : Spells moves (start ++ joined moves)
  | extended {start name extension : String} (hstart : start ∈ ["", "./"])
      (hlast : moves.getLast? = some (.down name)) (hextension : extension ∈ Path.luauExtensions) :
      Spells moves (start ++ joined moves ++ "." ++ extension)

theorem isSeparator_of_mem_spelling {move : Move} (h : move.IsProper) :
    ∀ c ∈ move.spelling.toList, isSeparator c = false := by
  cases move with
  | up => simp [spelling, isSeparator]
  | down name =>
      intro c hc
      have hslash : c ≠ '/' := ne_of_mem_of_not_mem hc h.1.2.2.2
      have hback : c ≠ '\\' := ne_of_mem_of_not_mem hc h.2
      simp [isSeparator, hslash, hback]

theorem splitOn_joined {moves : List Move} (hne : moves ≠ [])
    (h : ∀ move ∈ moves, move.IsProper) :
    Text.splitOn isSeparator (joined moves).toList = moves.map (·.spelling.toList) := by
  have hpieces : ∀ piece ∈ moves.map (·.spelling.toList), ∀ c ∈ piece, isSeparator c = false := by
    intro piece hpiece
    obtain ⟨move, hmove, rfl⟩ := List.mem_map.mp hpiece
    exact isSeparator_of_mem_spelling (h move hmove)
  have hsplit := Text.splitOn_intercalate (by decide : isSeparator '/' = true)
    (by simpa using hne) hpieces
  have htext : (joined moves).toList = ['/'].intercalate (moves.map (·.spelling.toList)) := by
    rw [joined, String.toList_intercalate, List.map_map]
    rfl
  rw [htext, hsplit]

/-- The pieces of a string without an extension are the steps, after pieces that stand for none. -/
theorem exists_splitOn_start {moves : List Move} (h : ∀ move ∈ moves, move.IsProper)
    {start : String} (hstart : start ∈ ["", "./"]) :
    ∃ idle : List (List Char), (∀ piece ∈ idle, piece = [] ∨ piece = ['.']) ∧
      Text.splitOn isSeparator (start ++ joined moves).toList =
        idle ++ moves.map (·.spelling.toList) := by
  have hjoined : ∃ idle : List (List Char), (∀ piece ∈ idle, piece = [] ∨ piece = ['.']) ∧
      Text.splitOn isSeparator (joined moves).toList =
        idle ++ moves.map (·.spelling.toList) := by
    by_cases hne : moves = []
    · subst hne
      exact ⟨[[]], by simp, rfl⟩
    · exact ⟨[], by simp, splitOn_joined hne h⟩
  obtain ⟨idle, hidle, hsplit⟩ := hjoined
  rcases List.mem_cons.mp hstart with rfl | hstart
  · exact ⟨idle, hidle, by rw [String.empty_append, hsplit]⟩
  · obtain rfl := List.mem_singleton.mp hstart
    refine ⟨['.'] :: idle, by simpa using hidle, ?_⟩
    have htext : ("./" ++ joined moves).toList = ['.'] ++ '/' :: (joined moves).toList := by
      rw [String.toList_append]
      rfl
    rw [htext, Text.splitOn_append_cons (by decide), hsplit]
    rfl

/-- Two characters are too few for an extension. -/
theorem not_isSuffix_of_length_le {piece : List Char} (h : piece.length ≤ 2) {extension : String}
    (hextension : extension ∈ Path.luauExtensions) : ¬('.' :: extension.toList) <:+ piece := by
  intro hsuffix
  have hlong : 2 < ('.' :: extension.toList).length := by
    rcases List.mem_cons.mp hextension with rfl | hextension
    · decide
    · obtain rfl := List.mem_singleton.mp hextension
      decide
  have hlength := hsuffix.length_le
  omega

/-- A string without an extension is left as it is. -/
theorem dropExtension_start {moves : List Move} (h : IsWritable moves) {start : String}
    (hstart : start ∈ ["", "./"]) :
    TreeIndex.dropExtension (start ++ joined moves).toList = (start ++ joined moves).toList := by
  obtain ⟨idle, hidle, hsplit⟩ := exists_splitOn_start h.isProper hstart
  rcases List.eq_nil_or_concat moves with rfl | ⟨front, move, rfl⟩
  · rw [List.map_nil, List.append_nil] at hsplit
    have hne : idle ≠ [] := hsplit ▸ Text.splitOn_ne_nil _ _
    have hshort : (idle.getLast hne).length ≤ 2 := by
      rcases hidle _ (List.getLast_mem hne) with hlast | hlast
      · simp [hlast]
      · simp [hlast]
    exact TreeIndex.dropExtension_of_last (hsplit.trans (List.dropLast_append_getLast hne).symm)
      fun extension hextension => not_isSuffix_of_length_le hshort hextension
  · rw [List.concat_eq_append] at h hsplit ⊢
    rw [List.map_append, List.map_singleton, ← List.append_assoc] at hsplit
    refine TreeIndex.dropExtension_of_last hsplit fun extension hextension => ?_
    cases move with
    | up => exact not_isSuffix_of_length_le (by decide) hextension
    | down name => exact h.not_extended name List.getLast?_concat extension hextension

/-- The pieces of a string that steps are written as are the steps, after pieces that stand for
none. -/
theorem Spells.exists_splitOn {moves : List Move} {require : String} (h : Spells moves require)
    (hmoves : IsWritable moves) :
    ∃ idle : List (List Char), (∀ piece ∈ idle, piece = [] ∨ piece = ['.']) ∧
      Text.splitOn isSeparator (TreeIndex.dropExtension require.toList) =
        idle ++ moves.map (·.spelling.toList) := by
  cases h with
  | plain hstart =>
      rw [dropExtension_start hmoves hstart]
      exact exists_splitOn_start hmoves.isProper hstart
  | @extended start name extension hstart _ hextension =>
      have htext : (start ++ joined moves ++ "." ++ extension).toList =
          (start ++ joined moves).toList ++ '.' :: extension.toList := by
        rw [String.toList_append, String.toList_append, List.append_assoc]
        rfl
      rw [htext, TreeIndex.dropExtension_append hextension]
      exact exists_splitOn_start hmoves.isProper hstart

/-! ## Walks -/

/-- A walk with one more step. -/
def extend (base : RequireArgument) : Move → RequireArgument
  | up => .field base "Parent"
  | down name => .key base name

/-- The walk that steps are written as in an instance. It starts at `script`, or at its parent when
relative requires in the instance start there. -/
def walk (directoryLike : Bool) (moves : List Move) : RequireArgument :=
  moves.foldl extend
    (if directoryLike then .global "script" else .field (.global "script") "Parent")

theorem walk_ne_literal (directoryLike : Bool) (moves : List Move) (text : String) :
    walk directoryLike moves ≠ .literal text := by
  rcases List.eq_nil_or_concat moves with rfl | ⟨front, move, rfl⟩
  · cases directoryLike with
    | true => rintro ⟨⟩
    | false => rintro ⟨⟩
  · rw [walk, List.concat_eq_append, List.foldl_concat]
    cases move with
    | up => rintro ⟨⟩
    | down name => rintro ⟨⟩

variable {tree : SourceTree} {self : Option Location}

theorem walk?_foldl (moves : List Move) (base : RequireArgument) :
    (moves.foldl extend base).walk? tree self =
      (base.walk? tree self).bind (moves.foldlM Location.follow?) := by
  induction moves generalizing base with
  | nil => exact (Option.bind_fun_some _).symm
  | cons move moves ih =>
      have hstep : (extend base move).walk? tree self =
          (base.walk? tree self).bind (Location.follow? · move) := by
        cases move with
        | up => rfl
        | down name => rfl
      rw [List.foldl_cons, ih, hstep, Option.bind_assoc]
      rfl

theorem mayFail_foldl (moves : List Move) (base : RequireArgument) :
    (moves.foldl extend base).mayFail = base.mayFail := by
  induction moves generalizing base with
  | nil => rfl
  | cons move moves ih =>
      rw [List.foldl_cons, ih]
      cases move with
      | up => rfl
      | down name => rfl

theorem asksParent_foldl {moves : List Move} (h : up ∉ moves) (base : RequireArgument) :
    (moves.foldl extend base).asksParent = base.asksParent := by
  induction moves generalizing base with
  | nil => rfl
  | cons move moves ih =>
      rw [List.foldl_cons, ih (List.not_mem_of_not_mem_cons h)]
      cases move with
      | up => exact absurd List.mem_cons_self h
      | down name => rfl

theorem isPlain_foldl {moves : List Move} (h : ∀ move ∈ moves, move.IsProper)
    {base : RequireArgument} (hbase : base.IsPlain) : (moves.foldl extend base).IsPlain := by
  induction moves generalizing base with
  | nil => exact hbase
  | cons move moves ih =>
      refine ih (fun later hlater => h later (List.mem_cons_of_mem move hlater)) ?_
      have hmove := h move List.mem_cons_self
      cases move with
      | up => exact ⟨hbase, by decide⟩
      | down name => exact ⟨hbase, hmove.1.2.2.2⟩

/-- Walks that start at the same place stay together. -/
theorem evaluate_foldl_congr {index : TreeIndex} {place place' : Option String}
    {base base' : RequireArgument} (h : base.evaluate index place = base'.evaluate index place')
    (moves : List Move) :
    (moves.foldl extend base).evaluate index place =
      (moves.foldl extend base').evaluate index place' := by
  induction moves generalizing base base' with
  | nil => exact h
  | cons move moves ih =>
      apply ih
      cases move with
      | up => simp only [extend, RequireArgument.evaluate, h]
      | down name => simp only [extend, RequireArgument.evaluate, h]

end Move

namespace SourceTree

variable {tree : SourceTree} {location : Location}

theorem parent?_place_of_top {node : SourceTree} (h : ⟨node, []⟩ ∈ tree.locations) :
    VirtualName.parent? (Location.place ⟨node, []⟩) = none := by
  obtain rfl := eq_of_top_mem h
  have hplace : Location.place ⟨node, []⟩ = VirtualName.root node := rfl
  rw [hplace, VirtualName.parent?, Option.map_eq_none_iff]
  cases hsplit : Text.splitLast '/' (VirtualName.root node).toList with
  | none => rfl
  | some cut =>
      have hmem : '/' ∈ (VirtualName.root node).toList := by
        rw [(Text.splitLast_eq_some hsplit).1]
        simp
      exact absurd hmem (VirtualName.slash_not_mem_root node)

/-- The parent of a place is the place of the parent. -/
theorem parent?_place (htree : tree.HasPlainPlaces) (h : location ∈ tree.locations) :
    VirtualName.parent? location.place = location.parent?.map Location.place := by
  cases hup : location.parent? with
  | some up => exact (parent?_eq_some htree h hup).2
  | none =>
      obtain ⟨node, above⟩ := location
      cases above with
      | nil => exact parent?_place_of_top h
      | cons next above => cases hup

end SourceTree

namespace Move

variable {directory : String} {tree : SourceTree} {location : Location}

/-- A walk in an instance goes the same way as one from the instance at which relative requires
start. -/
theorem resolveWalk?_walk (htree : tree.HasPlainPlaces) (h : location ∈ tree.locations)
    (index : TreeIndex) (moves : List Move) :
    (walk location.directoryLike moves).resolveWalk? index (some location.place) =
      (moves.foldl extend (.global "script")).resolveWalk? index
        (location.start?.map Location.place) := by
  have hstart : RequireArgument.evaluate index (some location.place)
        (if location.directoryLike then .global "script" else .field (.global "script") "Parent") =
      RequireArgument.evaluate index (location.start?.map Location.place) (.global "script") := by
    rw [Location.start?]
    split
    · rfl
    · have hparent := SourceTree.parent?_place htree h
      simp only [RequireArgument.evaluate, Option.map_some, Option.bind_eq_bind, Option.bind_some,
        if_pos, hparent]
      cases location.parent? with
      | none => rfl
      | some up => rfl
  rw [RequireArgument.resolveWalk?, RequireArgument.resolveWalk?, walk,
    evaluate_foldl_congr hstart]

end Move

end LuauWorkspace
