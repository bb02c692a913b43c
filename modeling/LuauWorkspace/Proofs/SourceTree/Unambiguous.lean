import LuauWorkspace.Proofs.Path.Script
import LuauWorkspace.Proofs.SourceTree.Preorder
import Mathlib.Data.List.Nodup

/-! # Trees without ambiguous places

When no name holds a separator and siblings have different names, a place belongs to one instance
only, and steps in the tree are steps on places. -/

namespace LuauWorkspace

/-! ## Names -/

namespace VirtualName

theorem toList_child (place name : String) :
    (child place name).toList = place.toList ++ '/' :: name.toList := by simp [child]

theorem parent?_child {name : String} (h : '/' ∉ name.toList) (place : String) :
    parent? (child place name) = some place := by
  rw [parent?, toList_child, Text.splitLast_append h]
  exact congrArg some String.ofList_toList

theorem child_injective {place place' name name' : String} (h : '/' ∉ name.toList)
    (h' : '/' ∉ name'.toList) (heq : child place name = child place' name') :
    place = place' ∧ name = name' := by
  have hplace : place = place' := by
    have hparent := parent?_child h place
    rw [heq, parent?_child h'] at hparent
    exact (Option.some.inj hparent).symm
  subst hplace
  have htext := congrArg String.toList heq
  rw [toList_child, toList_child] at htext
  exact ⟨rfl, String.toList_inj.mp (List.cons.inj (List.append_cancel_left htext)).2⟩

theorem slash_not_mem_root (tree : SourceTree) : '/' ∉ (root tree).toList := by
  rw [root]
  split
  · decide
  · decide

theorem child_ne_root (place name : String) (tree : SourceTree) :
    child place name ≠ root tree := by
  intro heq
  apply slash_not_mem_root tree
  rw [← heq, toList_child]
  exact List.mem_append_right _ List.mem_cons_self

theorem root_eq_game_iff {tree : SourceTree} : root tree = game ↔ tree.className = "DataModel" := by
  rw [root]
  split
  · next h => exact ⟨fun _ => h, fun _ => rfl⟩
  · next h => exact ⟨fun heq => absurd heq (by decide), fun hclass => absurd hclass h⟩

end VirtualName

namespace SourceTree

/-- No name holds a separator, and the children of every instance have different names. -/
structure Unambiguous (tree : SourceTree) : Prop where
  slash_not_mem_name : ∀ node ∈ tree.preorder, '/' ∉ node.name.toList
  nodup_names : ∀ node ∈ tree.preorder, (node.children.map name).Nodup

/-- What makes places unambiguous: the name of the topmost instance, which is in no place, does not
count. -/
structure HasPlainPlaces (tree : SourceTree) : Prop where
  slash_not_mem : ∀ location ∈ tree.locations, ∀ child ∈ location.node.children,
    '/' ∉ child.name.toList
  nodup : ∀ location ∈ tree.locations, (location.node.children.map name).Nodup

variable {tree : SourceTree} {location location' : Location}

theorem Unambiguous.hasPlainPlaces (h : tree.Unambiguous) : tree.HasPlainPlaces where
  slash_not_mem _ hlocation _ hchild :=
    h.slash_not_mem_name _ (mem_preorder_of_mem_locations (enter_mem hlocation hchild))
  nodup _ hlocation := h.nodup_names _ (mem_preorder_of_mem_locations hlocation)

/-! ## Locations and places -/

/-- Where places are plain, the place tells the instance. -/
theorem HasPlainPlaces.eq_of_place_eq (htree : tree.HasPlainPlaces)
    (h : location ∈ tree.locations) (h' : location' ∈ tree.locations)
    (heq : location.place = location'.place) : location = location' := by
  obtain ⟨node, above⟩ := location
  obtain ⟨node', above'⟩ := location'
  induction above generalizing node node' above' with
  | nil =>
      cases above' with
      | nil => rw [eq_of_top_mem h, eq_of_top_mem h']
      | cons next' above' =>
          rw [eq_of_top_mem h] at heq
          exact absurd heq.symm (VirtualName.child_ne_root _ _ _)
  | cons next above ih =>
      cases above' with
      | nil =>
          rw [eq_of_top_mem h'] at heq
          exact absurd heq (VirtualName.child_ne_root _ _ _)
      | cons next' above' =>
          obtain ⟨hup, hnode⟩ := parent_mem h
          obtain ⟨hup', hnode'⟩ := parent_mem h'
          obtain ⟨hplace, hname⟩ := VirtualName.child_injective
            (htree.slash_not_mem _ hup node hnode) (htree.slash_not_mem _ hup' node' hnode') heq
          obtain ⟨rfl, rfl⟩ := Location.mk.inj (ih _ hup _ _ hup' hplace)
          rw [List.inj_on_of_nodup_map (htree.nodup _ hup) hnode hnode' hname]

/-! ## Steps -/

theorem child?_eq_some {name : String} (h : location ∈ tree.locations)
    (hchild : location.child? name = some location') :
    location' ∈ tree.locations ∧ location'.place = VirtualName.child location.place name := by
  obtain ⟨child, hfound, rfl⟩ := Option.map_eq_some_iff.mp hchild
  have hname := List.find?_some hfound
  obtain rfl := beq_iff_eq.mp hname
  exact ⟨enter_mem h (List.mem_of_find?_eq_some hfound), location.place_enter child⟩

theorem parent?_eq_some (htree : tree.HasPlainPlaces) (h : location ∈ tree.locations)
    (hup : location.parent? = some location') :
    location' ∈ tree.locations ∧ VirtualName.parent? location.place = some location'.place := by
  obtain ⟨node, above⟩ := location
  cases above with
  | nil => cases hup
  | cons next above =>
      obtain rfl := Option.some.inj hup
      obtain ⟨hmem, hnode⟩ := parent_mem h
      exact ⟨hmem, VirtualName.parent?_child (htree.slash_not_mem _ hmem node hnode) _⟩

/-- A place below another place is that of a child. -/
theorem exists_child?_of_place_eq (htree : tree.HasPlainPlaces) {place name : String}
    (hname : '/' ∉ name.toList) (h : location ∈ tree.locations)
    (hplace : location.place = VirtualName.child place name) :
    ∃ up ∈ tree.locations, up.place = place ∧ up.child? name = some location := by
  obtain ⟨node, above⟩ := location
  cases above with
  | nil =>
      rw [eq_of_top_mem h] at hplace
      exact absurd hplace.symm (VirtualName.child_ne_root _ _ _)
  | cons next above =>
      obtain ⟨hup, hnode⟩ := parent_mem h
      obtain ⟨hupPlace, rfl⟩ :=
        VirtualName.child_injective (htree.slash_not_mem _ hup node hnode) hname hplace
      refine ⟨⟨next, above⟩, hup, hupPlace, ?_⟩
      -- No sibling has the name, so the child is the first one with it.
      cases hfound : next.children.find? (·.name == node.name) with
      | none => exact absurd (beq_self_eq_true _) (List.find?_eq_none.mp hfound node hnode)
      | some first =>
          have hsame := List.find?_some hfound
          obtain rfl := List.inj_on_of_nodup_map (htree.nodup _ hup)
            (List.mem_of_find?_eq_some hfound) hnode (beq_iff_eq.mp hsame)
          rw [Location.child?, hfound]
          rfl

/-- The place of the game is that of a topmost instance that is the game. -/
theorem place_eq_game_iff (h : location ∈ tree.locations) :
    location.place = VirtualName.game ↔
      location = ⟨tree, []⟩ ∧ tree.className = "DataModel" := by
  obtain ⟨node, above⟩ := location
  cases above with
  | nil =>
      obtain rfl := eq_of_top_mem h
      have hplace : Location.place ⟨node, []⟩ = VirtualName.root node := rfl
      rw [hplace, VirtualName.root_eq_game_iff]
      exact ⟨fun hclass => ⟨rfl, hclass⟩, And.right⟩
  | cons next above =>
      constructor
      · intro heq
        have hslash : '/' ∉ VirtualName.game.toList := by decide
        rw [← heq, Location.place, Location.place.below, VirtualName.toList_child] at hslash
        exact absurd (List.mem_append_right _ List.mem_cons_self) hslash
      · rintro ⟨heq, -⟩
        cases heq

/-! ## Looking up -/

/-- The last location with a place. -/
def atPlace? (tree : SourceTree) (place : String) : Option Location :=
  tree.locations.reverse.find? (·.place == place)

/-- The last location that claims a file, in whatever spelling, in a project under `base`. -/
def atFile? (tree : SourceTree) (base path : Path) : Option Location :=
  tree.locations.reverse.find? (·.file? base == some path.normalize)

end SourceTree

namespace TreeIndex

open SourceTree

variable {directory : String} {tree : SourceTree} {location : Location} {entry : TreeEntry}

theorem rel_ofPlace? (directory : String) (tree : SourceTree) (place : String) :
    Option.Rel (Represents directory tree) (tree.atPlace? place)
      ((ofTree directory tree).ofPlace? place) := by
  rw [(lawful_ofTree directory tree).ofPlace?_eq]
  refine rel_find? (List.rel_reverse (forall₂_represents directory tree)) ?_
  intro location entry h
  rw [h.place_eq]

theorem rel_ofFile? (directory : String) (tree : SourceTree) (path : Path) :
    Option.Rel (Represents directory tree) (tree.atFile? (Path.ofString directory) path)
      ((ofTree directory tree).ofFile? path) := by
  rw [(lawful_ofTree directory tree).ofFile?_eq]
  refine rel_find? (List.rel_reverse (forall₂_represents directory tree)) ?_
  intro location entry h
  rw [h.file_eq]

theorem rel_nearestNamed? (h : Represents directory tree location entry) (name : String) :
    Option.Rel (Represents directory tree) (location.ancestors.find? (·.node.name == name))
      ((ofTree directory tree).nearestNamed? entry name) := by
  obtain ⟨id, hentry⟩ := h
  refine rel_find? (ancestors_spec hentry).2 ?_
  rintro around ancestor ⟨up, hup⟩
  rw [hup.name_eq]

/-- What is found at a place is an instance with this place. -/
theorem exists_represents_of_ofPlace? {place : String}
    (h : (ofTree directory tree).ofPlace? place = some entry) :
    ∃ location, Represents directory tree location entry ∧ location.place = place := by
  obtain ⟨hmem, hplace⟩ := (lawful_ofTree directory tree).mem_of_ofPlace? h
  obtain ⟨location, hrepresents⟩ := exists_represents_of_mem hmem
  exact ⟨location, hrepresents, hrepresents.place_eq.symm.trans hplace⟩

/-- The place of an instance leads to the instance. -/
theorem exists_ofPlace?_place (directory : String) (htree : tree.HasPlainPlaces)
    (h : location ∈ tree.locations) :
    ∃ entry, (ofTree directory tree).ofPlace? location.place = some entry ∧
      Represents directory tree location entry := by
  cases hfound : (ofTree directory tree).ofPlace? location.place with
  | some entry =>
      obtain ⟨other, hrepresents, hplace⟩ := exists_represents_of_ofPlace? hfound
      obtain rfl := htree.eq_of_place_eq hrepresents.mem_locations h hplace
      exact ⟨entry, rfl, hrepresents⟩
  | none =>
      obtain ⟨entry, hentry⟩ := exists_represents directory h
      rw [(lawful_ofTree directory tree).ofPlace?_eq, findLast?_eq_none_iff] at hfound
      have hother := hfound entry hentry.mem_nodes
      exact absurd hentry.place_eq (beq_eq_false_iff_ne.mp hother)

end TreeIndex

end LuauWorkspace
