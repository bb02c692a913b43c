import LuauWorkspace.Proofs.SourceTree.Place

/-! # Entries of instances

The index of a tree holds one entry for every location, at the same position. A step from an entry
leads to the entry of where the step leads from the location. -/

namespace LuauWorkspace

namespace TreeIndex

open SourceTree

variable {directory : String} {tree : SourceTree} {id : Nat} {location : Location}
  {entry : TreeEntry}

/-! ## Entries at locations -/

/-- `entry` is the entry at position `id`, and it is that of the instance at `location`. -/
def IsEntryAt (directory : String) (tree : SourceTree) (id : Nat) (location : Location)
    (entry : TreeEntry) : Prop :=
  ∃ parent, tree.Lies id parent location ∧
    entry = Occurrence.entry (Path.ofString directory) ⟨id, parent, location⟩

/-- `entry` is an entry of the instance at `location`. -/
def Represents (directory : String) (tree : SourceTree) (location : Location)
    (entry : TreeEntry) : Prop :=
  ∃ id, IsEntryAt directory tree id location entry

theorem size_ofTree (directory : String) (tree : SourceTree) :
    (ofTree directory tree).size = tree.count := by
  rw [size, ← Array.length_toList, nodes_ofTree, List.length_map, occurrences,
    length_occurrencesBelow]

theorem exists_isEntryAt (directory : String) {parent : Option Nat}
    (h : tree.Lies id parent location) : ∃ entry, IsEntryAt directory tree id location entry :=
  ⟨_, parent, h, rfl⟩

theorem exists_represents (directory : String) (h : location ∈ tree.locations) :
    ∃ entry, Represents directory tree location entry := by
  obtain ⟨id, parent, hlies⟩ := exists_lies_of_mem h
  exact ⟨_, id, parent, hlies, rfl⟩

namespace IsEntryAt

variable (h : IsEntryAt directory tree id location entry)

include h

theorem getElem?_locations : tree.locations[id]? = some location := by
  obtain ⟨parent, hlies, -⟩ := h
  exact hlies.getElem?_locations

theorem getElem? : (ofTree directory tree).nodes[id]? = some entry := by
  obtain ⟨parent, hlies, rfl⟩ := h
  rw [← Array.getElem?_toList, nodes_ofTree, List.getElem?_map, hlies.getElem?_occurrences,
    Option.map_some]

theorem place_eq : entry.place = location.place := by
  obtain ⟨parent, -, rfl⟩ := h
  rfl

theorem name_eq : entry.name = location.node.name := by
  obtain ⟨parent, -, rfl⟩ := h
  rfl

theorem file_eq : entry.file = location.file? (Path.ofString directory) := by
  obtain ⟨parent, -, rfl⟩ := h
  rfl

theorem children_eq : entry.children = positions (id + 1) location.node.children := by
  obtain ⟨parent, -, rfl⟩ := h
  rfl

end IsEntryAt

theorem exists_isEntryAt_of_getElem? (h : (ofTree directory tree).nodes[id]? = some entry) :
    ∃ location, IsEntryAt directory tree id location entry := by
  have hid := (lawful_ofTree directory tree).id_eq id entry h
  rw [← Array.getElem?_toList] at h
  obtain ⟨id', parent, location, hlies, rfl⟩ := exists_eq_entry_of_mem (List.mem_of_getElem? h)
  obtain rfl : id' = id := hid
  exact ⟨location, parent, hlies, rfl⟩

theorem exists_represents_of_mem (h : entry ∈ (ofTree directory tree).nodes.toList) :
    ∃ location, Represents directory tree location entry := by
  obtain ⟨id, parent, location, hlies, rfl⟩ := exists_eq_entry_of_mem h
  exact ⟨location, id, parent, hlies, rfl⟩

namespace Represents

variable (h : Represents directory tree location entry)

include h

theorem mem_locations : location ∈ tree.locations := by
  obtain ⟨id, hentry⟩ := h
  exact List.mem_of_getElem? hentry.getElem?_locations

theorem mem_nodes : entry ∈ (ofTree directory tree).nodes.toList := by
  obtain ⟨id, hentry⟩ := h
  exact mem_of_getElem? hentry.getElem?

theorem place_eq : entry.place = location.place :=
  h.elim fun _ hentry => hentry.place_eq

theorem file_eq : entry.file = location.file? (Path.ofString directory) :=
  h.elim fun _ hentry => hentry.file_eq

end Represents

/-- The entries of the index stand in the order of the locations. -/
theorem forall₂_represents (directory : String) (tree : SourceTree) :
    List.Forall₂ (Represents directory tree) tree.locations
      (ofTree directory tree).nodes.toList := by
  rw [nodes_ofTree, ← map_location_occurrences, List.forall₂_map_left_iff,
    List.forall₂_map_right_iff, List.forall₂_same]
  intro occurrence hmem
  exact ⟨_, _, lies_of_mem_occurrencesBelow tree .top hmem, rfl⟩

/-! ## Parents -/

/-- The topmost instance has no parent in the index. -/
theorem IsEntryAt.parent_top {node : SourceTree}
    (h : IsEntryAt directory tree id ⟨node, []⟩ entry) : id = 0 ∧ entry.parent = none := by
  obtain ⟨parent, hlies, rfl⟩ := h
  obtain ⟨hid, hparent, -⟩ := hlies.eq_top
  exact ⟨hid, hparent⟩

/-- What the index says of an instance at position `id` and of its parent at position `up`. -/
structure IsLink (directory : String) (tree : SourceTree) (id up : Nat) (around : Location)
    (entry parent : TreeEntry) : Prop where
  lt : up < id
  isEntryAt : IsEntryAt directory tree up around parent
  link : entry.parent = some up
  parent?_eq : (ofTree directory tree).parent? entry = some parent
  mem_children : id ∈ parent.children
  place_eq : entry.place = parent.place ++ "/" ++ entry.name

/-- The parent of an instance stands before it in the index. -/
theorem IsEntryAt.exists_parent {node next : SourceTree} {above : List SourceTree}
    (h : IsEntryAt directory tree id ⟨node, next :: above⟩ entry) :
    ∃ up parent, IsLink directory tree id up ⟨next, above⟩ entry parent := by
  obtain ⟨link, hlies, rfl⟩ := h
  obtain ⟨up, upper, before, after, hid, rfl, hup, hchildren⟩ := hlies.exists_parent
  obtain ⟨parent, hparent⟩ := exists_isEntryAt directory hup
  refine ⟨up, parent, by omega, hparent, rfl, hparent.getElem?, ?_, ?_⟩
  · rw [hparent.children_eq]
    exact mem_positions.mpr ⟨before, node, after, hchildren, hid⟩
  · rw [hparent.place_eq]
    rfl

theorem rel_parent? (h : Represents directory tree location entry) :
    Option.Rel (Represents directory tree) location.parent?
      ((ofTree directory tree).parent? entry) := by
  obtain ⟨id, h⟩ := h
  obtain ⟨node, above⟩ := location
  cases above with
  | nil =>
      rw [parent?, h.parent_top.2, Option.bind_none]
      exact .none
  | cons next above =>
      obtain ⟨up, parent, hup⟩ := h.exists_parent
      rw [hup.parent?_eq]
      exact .some ⟨up, hup.isEntryAt⟩

/-! ## Children -/

/-- The positions that an entry lists are those of the children, in order. -/
theorem IsEntryAt.forall₂_children (h : IsEntryAt directory tree id location entry) :
    List.Forall₂
      (fun childId child => ∃ below, IsEntryAt directory tree childId (location.enter child) below)
      entry.children location.node.children := by
  rw [h.children_eq]
  obtain ⟨parent, hlies, -⟩ := h
  exact forall₂_positions fun before child after hchildren =>
    exists_isEntryAt directory (hlies.child hchildren)

/-- Where all positions are those of entries, none of them is left out. -/
theorem forall₂_filterMap {index : TreeIndex} {ids : List Nat}
    (h : ∀ id ∈ ids, ∃ entry, index.nodes[id]? = some entry) :
    List.Forall₂ (fun id entry => index.nodes[id]? = some entry) ids
      (ids.filterMap fun id => index.nodes[id]?) := by
  induction ids with
  | nil => exact .nil
  | cons id ids ih =>
      obtain ⟨entry, hentry⟩ := h id List.mem_cons_self
      rw [List.filterMap_cons_some hentry]
      exact .cons hentry (ih fun other hmem => h other (List.mem_cons_of_mem id hmem))

theorem IsEntryAt.forall₂_getElem?_children (h : IsEntryAt directory tree id location entry) :
    List.Forall₂ (fun childId child => (ofTree directory tree).nodes[childId]? = some child)
      entry.children ((ofTree directory tree).children entry) := by
  refine forall₂_filterMap fun childId hmem => ?_
  rw [h.children_eq, mem_positions] at hmem
  obtain ⟨before, child, after, hchildren, rfl⟩ := hmem
  obtain ⟨parent, hlies, -⟩ := h
  obtain ⟨below, hbelow⟩ := exists_isEntryAt directory (hlies.child hchildren)
  exact ⟨below, hbelow.getElem?⟩

theorem forall₂_children (h : Represents directory tree location entry) :
    List.Forall₂ (fun child below => Represents directory tree (location.enter child) below)
      location.node.children ((ofTree directory tree).children entry) := by
  obtain ⟨id, h⟩ := h
  refine forall₂_of_common h.forall₂_children h.forall₂_getElem?_children ?_
  rintro childId child below ⟨found, hfound⟩ hbelow
  obtain rfl := Option.some.inj (hbelow.symm.trans hfound.getElem?)
  exact ⟨childId, hfound⟩

theorem rel_child? (h : Represents directory tree location entry) (name : String) :
    Option.Rel (Represents directory tree) (location.child? name)
      ((ofTree directory tree).child? entry name) := by
  have hrel := rel_find? (p := fun child => child.name == name)
    (q := fun below => below.name == name) (forall₂_children h) (by
      rintro child below ⟨childId, hbelow⟩
      rw [hbelow.name_eq]
      rfl)
  rw [Location.child?, child?]
  generalize location.node.children.find? _ = child at hrel ⊢
  generalize List.find? _ ((ofTree directory tree).children entry) = below at hrel ⊢
  cases hrel with
  | none => exact .none
  | some hbelow => exact .some hbelow

theorem mem_children_iff {childId : Nat} {child : TreeEntry}
    (hentry : (ofTree directory tree).nodes[id]? = some entry)
    (hchild : (ofTree directory tree).nodes[childId]? = some child) :
    childId ∈ entry.children ↔ child.parent = some id := by
  constructor
  · intro hmem
    obtain ⟨location, h⟩ := exists_isEntryAt_of_getElem? hentry
    rw [h.children_eq, mem_positions] at hmem
    obtain ⟨before, node, after, hchildren, rfl⟩ := hmem
    obtain ⟨parent, hlies, -⟩ := h
    have hbelow : IsEntryAt directory tree _ (location.enter node) _ :=
      ⟨some id, hlies.child hchildren, rfl⟩
    rw [hbelow.getElem?] at hchild
    exact Option.some.inj hchild ▸ rfl
  · intro hparent
    obtain ⟨⟨node, above⟩, hfound⟩ := exists_isEntryAt_of_getElem? hchild
    cases above with
    | nil =>
        rw [hfound.parent_top.2] at hparent
        cases hparent
    | cons next above =>
        obtain ⟨up, parent, hup⟩ := hfound.exists_parent
        obtain rfl : up = id := Option.some.inj (hup.link.symm.trans hparent)
        obtain rfl : parent = entry := Option.some.inj (hup.isEntryAt.getElem?.symm.trans hentry)
        exact hup.mem_children

end TreeIndex

end LuauWorkspace
