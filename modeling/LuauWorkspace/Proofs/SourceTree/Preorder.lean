import LuauWorkspace.Proofs.SourceTree.Entry
import Mathlib.Order.Bounds.Basic

/-! # The index as the pre-order of the tree

The index of a tree lists its instances in pre-order. Its links are those of the tree, walks towards
the top end there, and of several instances with one place or one file the last one is found. -/

namespace LuauWorkspace

namespace TreeIndex

open SourceTree

/-! ## What the index of a tree is -/

/-- `entry` says of an instance what the instance says of itself, with its file in normal form under
`base`. -/
structure Describes (base : Path) (node : SourceTree) (entry : TreeEntry) : Prop where
  name_eq : entry.name = node.name
  className_eq : entry.className = node.className
  metadata_eq : entry.metadata = node.metadata
  file_eq : entry.file = node.backingFile?.map fun file =>
    (base.join (Path.ofString file)).normalize
  directoryLike_iff : entry.directoryLike = true ↔
    ∀ file, node.scriptFile? = some file → (Path.ofString file).isInit = true

/-- `above` are all ancestors of an instance, the nearest first; the last of them has no parent. -/
inductive Ancestry (index : TreeIndex) : TreeEntry → List TreeEntry → Prop where
  | top {entry : TreeEntry} (h : index.parent? entry = none) : Ancestry index entry []
  | step {entry parent : TreeEntry} {above : List TreeEntry}
      (h : index.parent? entry = some parent) (habove : Ancestry index parent above) :
      Ancestry index entry (parent :: above)

/-- `found` is the entry at the last of the wanted positions, if there are any. -/
def FindsLast (index : TreeIndex) (found : Option TreeEntry) (wanted : Set Nat) : Prop :=
  (∀ entry, found = some entry → ∃ id, IsGreatest wanted id ∧ index.nodes[id]? = some entry) ∧
    (found = none → wanted = ∅)

/-- The index lists the instances of `tree`, whose files are relative to `base`, in pre-order. -/
structure IsPreorder (index : TreeIndex) (base : Path) (tree : SourceTree) : Prop where
  size_eq : index.size = tree.count
  describes : ∀ id : Nat, Option.Rel (Describes base) tree.preorder[id]? index.nodes[id]?
  /-- An entry is found under its own position. -/
  get : ∀ (id : Nat) (entry : TreeEntry), index.nodes[id]? = some entry →
    entry.id = id ∧ index.nodes[entry.id]? = some entry
  top : ∀ entry, index.nodes[0]? = some entry →
    entry.place = VirtualName.root tree ∧ entry.parent = none
  /-- A parent comes before its children, and their places continue its place. -/
  below : ∀ (id : Nat) (entry : TreeEntry), 0 < id → index.nodes[id]? = some entry →
    ∃ up parent, up < id ∧ entry.parent = some up ∧ index.nodes[up]? = some parent ∧
      index.parent? entry = some parent ∧ entry.place = parent.place ++ "/" ++ entry.name
  /-- Children are listed in the order of the tree. -/
  children : ∀ (id : Nat) (node : SourceTree) (entry : TreeEntry),
    tree.preorder[id]? = some node → index.nodes[id]? = some entry →
    entry.children.Pairwise (· < ·) ∧
      List.Forall₂ (fun childId child => tree.preorder[childId]? = some child)
        entry.children node.children ∧
      List.Forall₂ (fun childId child => index.nodes[childId]? = some child)
        entry.children (index.children entry)
  mem_children_iff : ∀ (id childId : Nat) (entry child : TreeEntry),
    index.nodes[id]? = some entry → index.nodes[childId]? = some child →
    (childId ∈ entry.children ↔ child.parent = some id)
  /-- Walks towards the top end, and they find the nearest instance. -/
  walks : ∀ (id : Nat) (entry : TreeEntry), index.nodes[id]? = some entry →
    ∃ above, index.Ancestry entry above ∧
      index.nearestWithFile? entry = (entry :: above).find? (·.file.isSome) ∧
      ∀ name, index.nearestNamed? entry name = above.find? (·.name == name)
  ofPlace : ∀ place, index.FindsLast (index.ofPlace? place)
    {id : Nat | ∃ entry, index.nodes[id]? = some entry ∧ entry.place = place}
  ofFile : ∀ path, index.FindsLast (index.ofFile? path)
    {id : Nat | ∃ node file, tree.preorder[id]? = some node ∧ node.backingFile? = some file ∧
      (base.join (Path.ofString file)).normalize = path.normalize}

variable {directory : String} {tree : SourceTree} {id : Nat} {location : Location}
  {entry : TreeEntry}

/-! ## Instances -/

theorem IsEntryAt.describes (h : IsEntryAt directory tree id location entry) :
    Describes (Path.ofString directory) location.node entry := by
  obtain ⟨parent, -, rfl⟩ := h
  exact ⟨rfl, rfl, rfl, rfl, Option.all_eq_true ..⟩

theorem IsEntryAt.getElem?_preorder (h : IsEntryAt directory tree id location entry) :
    tree.preorder[id]? = some location.node := by
  rw [SourceTree.getElem?_preorder, h.getElem?_locations, Option.map_some]

theorem rel_describes (directory : String) (tree : SourceTree) (id : Nat) :
    Option.Rel (Describes (Path.ofString directory)) tree.preorder[id]?
      (ofTree directory tree).nodes[id]? := by
  cases hentry : (ofTree directory tree).nodes[id]? with
  | some entry =>
      obtain ⟨location, h⟩ := exists_isEntryAt_of_getElem? hentry
      rw [h.getElem?_preorder]
      exact .some h.describes
  | none =>
      have hsize : tree.count ≤ id := by
        rw [← size_ofTree directory]
        exact Array.getElem?_eq_none_iff.mp hentry
      have hnone : tree.preorder[id]? = none := by
        rw [SourceTree.getElem?_preorder, List.getElem?_eq_none (by rwa [length_locations]),
          Option.map_none]
      rw [hnone]
      exact .none

theorem IsEntryAt.children_spec (h : IsEntryAt directory tree id location entry) :
    entry.children.Pairwise (· < ·) ∧
      List.Forall₂ (fun childId child => tree.preorder[childId]? = some child)
        entry.children location.node.children ∧
      List.Forall₂ (fun childId child => (ofTree directory tree).nodes[childId]? = some child)
        entry.children ((ofTree directory tree).children entry) := by
  refine ⟨?_, h.forall₂_children.imp ?_, h.forall₂_getElem?_children⟩
  · rw [h.children_eq]
    exact pairwise_positions _ _
  · rintro childId child ⟨below, hbelow⟩
    exact hbelow.getElem?_preorder

/-! ## Walks towards the top -/

/-- The ancestors in the index are those of the location, and no walk to the top is cut short. -/
theorem ancestorsWithin_spec {node : SourceTree} {above : List SourceTree} {bound : Nat}
    (h : IsEntryAt directory tree id ⟨node, above⟩ entry) (hbound : id ≤ bound) :
    (ofTree directory tree).Ancestry entry ((ofTree directory tree).ancestorsWithin entry bound) ∧
      List.Forall₂ (Represents directory tree) (Location.ancestors.around above)
        ((ofTree directory tree).ancestorsWithin entry bound) := by
  induction above generalizing id node entry bound with
  | nil =>
      have htop : (ofTree directory tree).parent? entry = none := by
        rw [parent?, h.parent_top.2, Option.bind_none]
      have hnil : (ofTree directory tree).ancestorsWithin entry bound = [] := by
        cases bound with
        | zero => rfl
        | succ bound => rw [ancestorsWithin, htop]
      rw [hnil]
      exact ⟨.top htop, .nil⟩
  | cons next above ih =>
      obtain ⟨up, parent, hup⟩ := h.exists_parent
      cases bound with
      | zero => exact absurd hup.lt (by omega)
      | succ bound =>
          have hlt := hup.lt
          have hup_le : up ≤ bound := by omega
          obtain ⟨hancestry, hall⟩ := ih hup.isEntryAt hup_le
          rw [ancestorsWithin, hup.parent?_eq]
          exact ⟨.step hup.parent?_eq hancestry, .cons ⟨up, hup.isEntryAt⟩ hall⟩

theorem ancestors_spec (h : IsEntryAt directory tree id location entry) :
    (ofTree directory tree).Ancestry entry ((ofTree directory tree).ancestors entry) ∧
      List.Forall₂ (Represents directory tree) location.ancestors
        ((ofTree directory tree).ancestors entry) := by
  obtain ⟨hid, -⟩ := Array.getElem?_eq_some_iff.mp h.getElem?
  exact ancestorsWithin_spec h (Nat.le_of_lt hid)

/-! ## Looking up -/

theorem findsLast_findLast? (index : TreeIndex) (condition : TreeEntry → Bool) :
    index.FindsLast (index.findLast? condition)
      {id : Nat | ∃ entry, index.nodes[id]? = some entry ∧ condition entry = true} := by
  constructor
  · intro entry hfound
    obtain ⟨before, after, heq, hafter⟩ := exists_after_of_findLast? hfound
    have hget : ∀ id : Nat, index.nodes[id]? = (before ++ entry :: after)[id]? := by
      intro id
      rw [← heq, Array.getElem?_toList]
    have hentry : index.nodes[before.length]? = some entry := by
      rw [hget, List.getElem?_append_right (Nat.le_refl _), Nat.sub_self]
      rfl
    refine ⟨before.length, ⟨⟨entry, hentry, (mem_of_findLast? hfound).2⟩, ?_⟩, hentry⟩
    rintro id ⟨other, hother, hcondition⟩
    by_contra hlt
    obtain ⟨k, rfl⟩ : ∃ k, id = before.length + (k + 1) := ⟨id - before.length - 1, by omega⟩
    rw [hget, List.getElem?_append_right (Nat.le_add_right _ _), Nat.add_sub_cancel_left,
      List.getElem?_cons_succ] at hother
    rw [hafter other (List.mem_of_getElem? hother)] at hcondition
    cases hcondition
  · intro hnone
    refine Set.eq_empty_of_forall_notMem ?_
    rintro id ⟨entry, hentry, hcondition⟩
    have hmem : entry ∈ index.nodes.toList.reverse :=
      List.mem_reverse.mpr (List.mem_of_getElem? (by rwa [Array.getElem?_toList]))
    exact List.find?_eq_none.mp hnone entry hmem hcondition

theorem Lawful.findsLast_ofPlace? {index : TreeIndex} (h : index.Lawful) (place : String) :
    index.FindsLast (index.ofPlace? place)
      {id : Nat | ∃ entry, index.nodes[id]? = some entry ∧ entry.place = place} := by
  have hfinds := index.findsLast_findLast? (·.place == place)
  simp only [beq_iff_eq] at hfinds
  rw [h.ofPlace?_eq]
  exact hfinds

theorem findsLast_ofFile? (directory : String) (tree : SourceTree) (path : Path) :
    (ofTree directory tree).FindsLast ((ofTree directory tree).ofFile? path)
      {id : Nat | ∃ node file, tree.preorder[id]? = some node ∧ node.backingFile? = some file ∧
        ((Path.ofString directory).join (Path.ofString file)).normalize = path.normalize} := by
  have hfinds := (ofTree directory tree).findsLast_findLast? (·.file == some path.normalize)
  simp only [beq_iff_eq] at hfinds
  have hwanted : {id : Nat | ∃ entry, (ofTree directory tree).nodes[id]? = some entry ∧
        entry.file = some path.normalize} =
      {id : Nat | ∃ node file, tree.preorder[id]? = some node ∧ node.backingFile? = some file ∧
        ((Path.ofString directory).join (Path.ofString file)).normalize = path.normalize} := by
    ext id
    have hrel := rel_describes directory tree id
    constructor
    · rintro ⟨entry, hentry, hfile⟩
      rw [hentry] at hrel
      obtain ⟨node, hnode, hdescribes⟩ := exists_left_of_rel hrel
      rw [hdescribes.file_eq, Option.map_eq_some_iff] at hfile
      obtain ⟨file, hbacking, hnormal⟩ := hfile
      exact ⟨node, file, hnode, hbacking, hnormal⟩
    · rintro ⟨node, file, hnode, hbacking, hnormal⟩
      rw [hnode] at hrel
      obtain ⟨entry, hentry, hdescribes⟩ := exists_right_of_rel hrel
      refine ⟨entry, hentry, ?_⟩
      rw [hdescribes.file_eq, hbacking, Option.map_some, hnormal]
  rw [hwanted] at hfinds
  rw [(lawful_ofTree directory tree).ofFile?_eq]
  exact hfinds

/-- The index of a tree lists the instances of the tree in pre-order. -/
theorem isPreorder_ofTree (directory : String) (tree : SourceTree) :
    (ofTree directory tree).IsPreorder (Path.ofString directory) tree where
  size_eq := size_ofTree directory tree
  describes := rel_describes directory tree
  get id entry hentry := by
    have hid := (lawful_ofTree directory tree).id_eq id entry hentry
    exact ⟨hid, hid ▸ hentry⟩
  top entry hentry := by
    have htop : IsEntryAt directory tree 0 ⟨tree, []⟩ _ := ⟨none, .top, rfl⟩
    rw [htop.getElem?] at hentry
    exact Option.some.inj hentry ▸ ⟨rfl, rfl⟩
  below id entry hpos hentry := by
    obtain ⟨⟨node, above⟩, h⟩ := exists_isEntryAt_of_getElem? hentry
    cases above with
    | nil => exact absurd h.parent_top.1 (by omega)
    | cons next above =>
        obtain ⟨up, parent, hup⟩ := h.exists_parent
        exact ⟨up, parent, hup.lt, hup.link, hup.isEntryAt.getElem?, hup.parent?_eq,
          hup.place_eq⟩
  children id node entry hnode hentry := by
    obtain ⟨location, h⟩ := exists_isEntryAt_of_getElem? hentry
    obtain rfl := Option.some.inj (hnode.symm.trans h.getElem?_preorder)
    exact h.children_spec
  mem_children_iff id childId entry child hentry hchild := mem_children_iff hentry hchild
  walks id entry hentry := by
    obtain ⟨location, h⟩ := exists_isEntryAt_of_getElem? hentry
    exact ⟨_, (ancestors_spec h).1, rfl, fun name => rfl⟩
  ofPlace := (lawful_ofTree directory tree).findsLast_ofPlace?
  ofFile := findsLast_ofFile? directory tree

end TreeIndex

end LuauWorkspace
