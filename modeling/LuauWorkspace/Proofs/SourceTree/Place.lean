import LuauWorkspace.Proofs.Path.Text
import LuauWorkspace.Proofs.SourceTree.Insertion

/-! # Places and files in the index

Places begin with the name of the tree, files are canonical, and what is looked up is what an
instance has. -/

namespace LuauWorkspace

open VirtualName

/-! ## Places -/

namespace VirtualName

theorem isVirtual_iff {name : String} :
    isVirtual name = true ↔ ∃ top ∈ [game, project], ∃ rest : List Char,
      name.toList = top.toList ++ rest ∧ rest.head?.all (· == '/') = true := by
  rw [isVirtual, List.any_eq_true]
  apply exists_congr
  intro top
  apply and_congr_right
  intro _
  constructor
  · intro h
    split at h
    · next rest hrest => exact ⟨rest, Text.dropStart?_eq_some_iff.mp hrest, h⟩
    · cases h
  · rintro ⟨rest, hname, hrest⟩
    rw [Text.dropStart?_eq_some_iff.mpr hname]
    exact hrest

theorem isVirtual_root (tree : SourceTree) : isVirtual (root tree) = true := by
  rw [root]
  split
  · decide
  · decide

theorem isVirtual_child {place : String} (h : isVirtual place = true) (name : String) :
    isVirtual (child place name) = true := by
  obtain ⟨top, htop, rest, hplace, hrest⟩ := isVirtual_iff.mp h
  refine isVirtual_iff.mpr ⟨top, htop, rest ++ '/' :: name.toList, ?_, ?_⟩
  · simp [child, hplace]
  · cases rest with
    | nil => rfl
    | cons c rest => exact hrest

end VirtualName

namespace SourceTree

theorem isVirtual_place {tree : SourceTree} :
    ∀ location ∈ tree.locations, isVirtual location.place = true :=
  locations_induction (isVirtual_root tree) fun _ child _ _ h => isVirtual_child h child.name

end SourceTree

namespace TreeIndex

open SourceTree

/-! ## Entries -/

theorem exists_eq_entry_of_mem {directory : String} {tree : SourceTree} {entry : TreeEntry}
    (h : entry ∈ (ofTree directory tree).nodes.toList) :
    ∃ id parent location, tree.Lies id parent location ∧
      entry = Occurrence.entry (Path.ofString directory) ⟨id, parent, location⟩ := by
  rw [nodes_ofTree] at h
  obtain ⟨found, hfound, rfl⟩ := List.mem_map.mp h
  exact ⟨_, _, _, lies_of_mem_occurrencesBelow tree .top hfound, rfl⟩

/-- What the index of a tree under a canonical directory keeps besides: every place lies in the tree
and every file is canonical. -/
structure WellFormed (index : TreeIndex) : Prop extends index.Lawful where
  isVirtual_place : ∀ entry ∈ index.nodes.toList, isVirtual entry.place = true
  isCanonical_file : ∀ entry ∈ index.nodes.toList, ∀ file, entry.file = some file →
    file.IsCanonical

theorem wellFormed_empty : empty.WellFormed where
  toLawful := lawful_empty ""
  isVirtual_place _ hmem := by cases hmem
  isCanonical_file _ hmem := by cases hmem

theorem wellFormed_ofTree {base : Path} (hbase : base.IsCanonical) (tree : SourceTree) :
    (ofTree base.toString tree).WellFormed where
  toLawful := lawful_ofTree base.toString tree
  isVirtual_place entry hmem := by
    obtain ⟨id, parent, location, hlies, rfl⟩ := exists_eq_entry_of_mem hmem
    exact SourceTree.isVirtual_place location hlies.mem
  isCanonical_file entry hmem file hfile := by
    obtain ⟨id, parent, location, -, rfl⟩ := exists_eq_entry_of_mem hmem
    obtain ⟨text, -, rfl⟩ := Option.map_eq_some_iff.mp hfile
    rw [hbase.ofString_toString]
    exact Path.isCanonical_absoluteIn hbase (Path.isProper_ofString text)

/-! ## Looking up -/

theorem mem_of_findLast? {index : TreeIndex} {condition : TreeEntry → Bool} {entry : TreeEntry}
    (h : index.findLast? condition = some entry) :
    entry ∈ index.nodes.toList ∧ condition entry = true :=
  ⟨List.mem_reverse.mp (List.mem_of_find?_eq_some h), List.find?_some h⟩

/-- What is found last stands before entries that do not satisfy the condition. -/
theorem exists_after_of_findLast? {index : TreeIndex} {condition : TreeEntry → Bool}
    {node : TreeEntry} (h : index.findLast? condition = some node) :
    ∃ before after, index.nodes.toList = before ++ node :: after ∧
      ∀ later ∈ after, condition later = false := by
  obtain ⟨_, front, back, heq, hfront⟩ := List.find?_eq_some_iff_append.mp h
  refine ⟨back.reverse, front.reverse, ?_, ?_⟩
  · have hreverse := congrArg List.reverse heq
    simpa using hreverse
  · intro later hlater
    simpa using hfront later (List.mem_reverse.mp hlater)

theorem findLast?_of_after {index : TreeIndex} {condition : TreeEntry → Bool}
    {before after : List TreeEntry} {node : TreeEntry}
    (heq : index.nodes.toList = before ++ node :: after)
    (hnode : condition node = true) (hafter : ∀ later ∈ after, condition later = false) :
    index.findLast? condition = some node := by
  refine List.find?_eq_some_iff_append.mpr ⟨hnode, after.reverse, before.reverse, ?_, ?_⟩
  · rw [heq]
    simp
  · intro later hlater
    simpa using hafter later (List.mem_reverse.mp hlater)

theorem findLast?_eq_none_iff {index : TreeIndex} {condition : TreeEntry → Bool} :
    index.findLast? condition = none ↔
      ∀ entry ∈ index.nodes.toList, condition entry = false := by
  simp [findLast?, List.find?_eq_none]

namespace Lawful

theorem mem_of_ofPlace? {index : TreeIndex} (hindex : index.Lawful) {place : String}
    {entry : TreeEntry} (h : index.ofPlace? place = some entry) :
    entry ∈ index.nodes.toList ∧ entry.place = place := by
  rw [hindex.ofPlace?_eq] at h
  obtain ⟨hmem, hplace⟩ := mem_of_findLast? h
  exact ⟨hmem, beq_iff_eq.mp hplace⟩

theorem mem_of_ofFile? {index : TreeIndex} (hindex : index.Lawful) {path : Path}
    {entry : TreeEntry} (h : index.ofFile? path = some entry) :
    entry ∈ index.nodes.toList ∧ entry.file = some path.normalize := by
  rw [hindex.ofFile?_eq] at h
  obtain ⟨hmem, hfile⟩ := mem_of_findLast? h
  exact ⟨hmem, beq_iff_eq.mp hfile⟩

theorem ofFile?_eq_none_iff {index : TreeIndex} (hindex : index.Lawful) {path : Path} :
    index.ofFile? path = none ↔
      ∀ entry ∈ index.nodes.toList, entry.file ≠ some path.normalize := by
  rw [hindex.ofFile?_eq, findLast?_eq_none_iff]
  simp only [beq_eq_false_iff_ne]

end Lawful

/-! ## Entries that are reached -/

variable {index : TreeIndex}

theorem mem_of_getElem? {id : Nat} {entry : TreeEntry} (h : index.nodes[id]? = some entry) :
    entry ∈ index.nodes.toList :=
  List.mem_of_getElem? (by rwa [Array.getElem?_toList])

theorem mem_of_parent? {node parent : TreeEntry} (h : index.parent? node = some parent) :
    parent ∈ index.nodes.toList := by
  obtain ⟨id, -, hid⟩ := Option.bind_eq_some_iff.mp h
  exact mem_of_getElem? hid

theorem mem_of_mem_children {node child : TreeEntry} (h : child ∈ index.children node) :
    child ∈ index.nodes.toList := by
  obtain ⟨id, -, hid⟩ := List.mem_filterMap.mp h
  exact mem_of_getElem? hid

theorem mem_of_child? {node child : TreeEntry} {name : String}
    (h : index.child? node name = some child) : child ∈ index.nodes.toList :=
  mem_of_mem_children (List.mem_of_find?_eq_some h)

theorem mem_of_mem_ancestorsWithin {node ancestor : TreeEntry} {bound : Nat}
    (h : ancestor ∈ index.ancestorsWithin node bound) : ancestor ∈ index.nodes.toList := by
  induction bound generalizing node with
  | zero => cases h
  | succ bound ih =>
      rw [ancestorsWithin] at h
      split at h
      · next parent hparent =>
          rcases List.mem_cons.mp h with rfl | h
          · exact mem_of_parent? hparent
          · exact ih h
      · cases h

theorem mem_of_nearestWithFile? {node nearest : TreeEntry} (hnode : node ∈ index.nodes.toList)
    (h : index.nearestWithFile? node = some nearest) : nearest ∈ index.nodes.toList := by
  rcases List.mem_cons.mp (List.mem_of_find?_eq_some h) with rfl | h
  · exact hnode
  · exact mem_of_mem_ancestorsWithin h

end TreeIndex

end LuauWorkspace
