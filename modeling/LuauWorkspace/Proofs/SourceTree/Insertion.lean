import LuauWorkspace.Proofs.Path.Canonical
import LuauWorkspace.Proofs.Related
import LuauWorkspace.Proofs.SourceTree.Location
import LuauWorkspace.SourceTree.Index

/-! # Building the index

Putting an instance at the end of an index and listing a child keep the registers in step with the
entries, and so does putting a whole tree there. What the index of a tree holds in the end are the
entries of its instances in pre-order. -/

namespace LuauWorkspace

/-! ## Changes inside a list -/

theorem modify_append_of_lt {α : Type} {xs : List α} {i : Nat} (h : i < xs.length) (ys : List α)
    (f : α → α) : (xs ++ ys).modify i f = xs.modify i f ++ ys := by
  induction xs generalizing i with
  | nil => cases h
  | cons x xs ih =>
      cases i with
      | zero => rfl
      | succ i =>
          rw [List.cons_append, List.modify_succ_cons, List.modify_succ_cons,
            ih (Nat.lt_of_succ_lt_succ h), List.cons_append]

theorem modify_concat {α : Type} (xs : List α) (x : α) (f : α → α) :
    (xs ++ [x]).modify xs.length f = xs ++ [f x] := by
  induction xs with
  | nil => rfl
  | cons first xs ih =>
      rw [List.cons_append, List.length_cons, List.modify_succ_cons, ih, List.cons_append]

/-! ## Entries -/

namespace TreeEntry

/-- The entry with more children at its end. -/
def adopt (ids : List Nat) (entry : TreeEntry) : TreeEntry :=
  { entry with children := entry.children ++ ids }

theorem adopt_nil (entry : TreeEntry) : entry.adopt [] = entry := by
  rw [adopt, List.append_nil]

theorem adopt_comp_adopt (ids ids' : List Nat) : adopt ids' ∘ adopt ids = adopt (ids ++ ids') := by
  funext entry
  simp only [Function.comp_apply, adopt, List.append_assoc]

end TreeEntry

/-- The entry of an instance, with all of its children. -/
def Occurrence.entry (base : Path) (occurrence : Occurrence) : TreeEntry :=
  (TreeEntry.ofTree base occurrence.location.node occurrence.id occurrence.location.place
    occurrence.parent).adopt
      (SourceTree.positions (occurrence.id + 1) occurrence.location.node.children)

namespace TreeIndex

open SourceTree

/-! ## What an index holds -/

/-- The last instance that satisfies a condition. -/
def findLast? (index : TreeIndex) (condition : TreeEntry → Bool) : Option TreeEntry :=
  index.nodes.toList.reverse.find? condition

/-- Under every key, a register holds the position of the last entry with the key. -/
def Records {κ : Type} [DecidableEq κ] (register : Register κ Nat) (key? : TreeEntry → Option κ)
    (nodes : List TreeEntry) : Prop :=
  ∀ key, register.find? key = (nodes.reverse.find? (key? · == some key)).map (·.id)

/-- What every index keeps while it is built: an entry knows its position, files are in normal form,
and both registers lead to the last entry with a key. -/
structure Lawful (index : TreeIndex) : Prop where
  id_eq : ∀ (id : Nat) (entry : TreeEntry), index.nodes[id]? = some entry → entry.id = id
  normalize_file : ∀ entry ∈ index.nodes.toList, ∀ file, entry.file = some file →
    file.normalize = file
  byPlace : Records index.byPlace (some ·.place) index.nodes.toList
  byFile : Records index.byFile (·.file) index.nodes.toList

/-! ## Single steps -/

section Records

variable {κ : Type} [DecidableEq κ] {register : Register κ Nat} {key? : TreeEntry → Option κ}
  {nodes : List TreeEntry}

/-- A new entry takes its key from the entries before it. -/
theorem Records.concat (h : Records register key? nodes) (entry : TreeEntry) :
    Records ((key? entry).elim register (register.put · entry.id)) key? (nodes ++ [entry]) := by
  intro key
  rw [List.reverse_append, List.reverse_singleton, List.singleton_append, List.find?_cons]
  cases hkey : key? entry with
  | none => exact h key
  | some own =>
      rw [Option.elim_some, Register.find?_put]
      by_cases hsame : key = own
      · subst hsame
        rw [if_pos rfl, beq_self_eq_true]
        rfl
      · have hother : (some own == some key) = false :=
          beq_eq_false_iff_ne.mpr fun heq => hsame (Option.some.inj heq).symm
        rw [if_neg hsame, hother]
        exact h key

/-- Children are not recorded. -/
theorem Records.modify (h : Records register key? nodes)
    (hadopt : ∀ ids entry, key? (TreeEntry.adopt ids entry) = key? entry) (id : Nat)
    (ids : List Nat) : Records register key? (nodes.modify id (TreeEntry.adopt ids)) := by
  intro key
  have hall : List.Forall₂ (fun entry changed => key? changed = key? entry ∧ changed.id = entry.id)
      nodes (nodes.modify id (TreeEntry.adopt ids)) :=
    forall₂_modify (fun _ => ⟨rfl, rfl⟩) (fun entry => ⟨hadopt ids entry, rfl⟩) nodes id
  have hrel := rel_find? (p := (key? · == some key)) (q := (key? · == some key))
    (List.rel_reverse hall) fun entry changed hsame => by rw [hsame.1]
  rw [h key]
  exact map_eq_of_rel hrel fun entry changed hsame => hsame.2.symm

end Records

theorem nodes_push (index : TreeIndex) (node : SourceTree) (parent : Option Nat)
    (place : String) :
    (index.push node parent place).nodes.toList = index.nodes.toList ++
      [TreeEntry.ofTree (Path.ofString index.directory) node index.size place parent] :=
  Array.toList_push

theorem nodes_addChild (index : TreeIndex) (parent child : Nat) :
    (index.addChild parent child).nodes.toList =
      index.nodes.toList.modify parent (TreeEntry.adopt [child]) :=
  Array.toList_modify

variable {index : TreeIndex}

theorem lawful_empty (directory : String) : Lawful { empty with directory } where
  id_eq _ _ h := by cases h
  normalize_file _ hmem := by cases hmem
  byPlace _ := rfl
  byFile _ := rfl

theorem Lawful.push (h : index.Lawful) (node : SourceTree) (parent : Option Nat)
    (place : String) : (index.push node parent place).Lawful where
  id_eq id entry hentry := by
    simp only [TreeIndex.push, Array.getElem?_push] at hentry
    split at hentry
    · next hid =>
        obtain rfl := Option.some.inj hentry
        exact hid.symm
    · exact h.id_eq id entry hentry
  normalize_file entry hmem file hfile := by
    rw [nodes_push] at hmem
    rcases List.mem_append.mp hmem with hmem | hmem
    · exact h.normalize_file entry hmem file hfile
    · obtain rfl := List.mem_singleton.mp hmem
      obtain ⟨text, -, rfl⟩ := Option.map_eq_some_iff.mp hfile
      exact Path.normalize_normalize _
  byPlace := by
    rw [nodes_push]
    exact h.byPlace.concat (TreeEntry.ofTree _ node index.size place parent)
  byFile := by
    rw [nodes_push]
    exact h.byFile.concat _

theorem Lawful.addChild (h : index.Lawful) (parent child : Nat) :
    (index.addChild parent child).Lawful where
  id_eq id entry hentry := by
    rw [← Array.getElem?_toList, nodes_addChild, List.getElem?_modify] at hentry
    obtain ⟨before, hbefore, rfl⟩ := Option.map_eq_some_iff.mp hentry
    rw [Array.getElem?_toList] at hbefore
    rw [← h.id_eq id before hbefore]
    split <;> rfl
  normalize_file entry hmem file hfile := by
    obtain ⟨id, hid⟩ := List.mem_iff_getElem?.mp hmem
    rw [nodes_addChild, List.getElem?_modify] at hid
    obtain ⟨before, hbefore, rfl⟩ := Option.map_eq_some_iff.mp hid
    refine h.normalize_file before (List.mem_of_getElem? hbefore) file (hfile ▸ ?_)
    split <;> rfl
  byPlace := nodes_addChild index parent child ▸ h.byPlace.modify (fun _ _ => rfl) parent [child]
  byFile := nodes_addChild index parent child ▸ h.byFile.modify (fun _ _ => rfl) parent [child]

/-! ## Whole trees -/

/-- A child is listed under the position that was free before it came. -/
theorem insertAll_cons (index : TreeIndex) (parent : Nat) (place : String) (node : SourceTree)
    (nodes : List SourceTree) :
    index.insertAll parent place (node :: nodes) =
      ((index.insert (some parent) (VirtualName.child place node.name) node).2.addChild parent
        index.size).insertAll parent place nodes := by
  cases node
  rfl

mutual

theorem Lawful.insert {index : TreeIndex} (h : index.Lawful) (parent : Option Nat)
    (place : String) : ∀ node : SourceTree, (index.insert parent place node).2.Lawful
  | .mk _ _ _ children _ => (h.push _ parent place).insertAll index.size place children

theorem Lawful.insertAll {index : TreeIndex} (h : index.Lawful) (parent : Nat) (place : String) :
    ∀ nodes : List SourceTree, (index.insertAll parent place nodes).Lawful
  | [] => h
  | node :: nodes =>
    ((h.insert (some parent) (VirtualName.child place node.name) node).addChild parent
      _).insertAll parent place nodes

end

mutual

theorem directory_insert (index : TreeIndex) (parent : Option Nat) (place : String) :
    ∀ node : SourceTree, (index.insert parent place node).2.directory = index.directory
  | .mk _ _ _ children _ =>
    directory_insertAll (index.push _ parent place) index.size place children

theorem directory_insertAll (index : TreeIndex) (parent : Nat) (place : String) :
    ∀ nodes : List SourceTree, (index.insertAll parent place nodes).directory = index.directory
  | [] => rfl
  | node :: nodes =>
    (directory_insertAll _ parent place nodes).trans
      (directory_insert index (some parent) (VirtualName.child place node.name) node)

end

theorem size_addChild (index : TreeIndex) (parent child : Nat) :
    (index.addChild parent child).size = index.size := Array.size_modify

mutual

/-- After the entries that are there already come those of the instance and of all below it. -/
theorem nodes_insert (index : TreeIndex) (parent : Option Nat) (above : List SourceTree) :
    ∀ node : SourceTree,
      (index.insert parent (Location.place ⟨node, above⟩) node).2.nodes.toList =
        index.nodes.toList ++ (occurrencesBelow above parent index.size node).map
          (Occurrence.entry (Path.ofString index.directory))
  | .mk name className files children metadata => by
    let node : SourceTree := .mk name className files children metadata
    let pushed := index.push node parent (Location.place ⟨node, above⟩)
    have hsize : pushed.size = index.size + 1 := Array.size_push ..
    have hlast := modify_concat index.nodes.toList
      (TreeEntry.ofTree (Path.ofString index.directory) node index.size
        (Location.place ⟨node, above⟩) parent) (TreeEntry.adopt (positions pushed.size children))
    rw [Array.length_toList, ← size, ← nodes_push] at hlast
    have hbelow := nodes_insertAll pushed index.size ⟨node, above⟩ children (by omega)
    rw [hlast, hsize, List.append_assoc] at hbelow
    exact hbelow

/-- The parent gets the positions of the children, and after the entries that are there already come
those of the children and of all below them. -/
theorem nodes_insertAll (index : TreeIndex) (parent : Nat) (around : Location) :
    ∀ nodes : List SourceTree, parent < index.size →
      (index.insertAll parent around.place nodes).nodes.toList =
        index.nodes.toList.modify parent (TreeEntry.adopt (positions index.size nodes)) ++
          (occurrencesBelowAll (around.node :: around.above) parent index.size nodes).map
            (Occurrence.entry (Path.ofString index.directory))
  | [], _ => by
    have hnone : TreeEntry.adopt [] = id := funext TreeEntry.adopt_nil
    rw [positions, hnone, List.modify_id, occurrencesBelowAll, List.map_nil, List.append_nil]
    rfl
  | node :: nodes, h => by
    let inserted := (index.insert (some parent) (around.enter node).place node).2
    let listed := inserted.addChild parent index.size
    have hnodes : inserted.nodes.toList = index.nodes.toList ++
        (occurrencesBelow (around.node :: around.above) (some parent) index.size node).map
          (Occurrence.entry (Path.ofString index.directory)) := nodes_insert ..
    have hlength : inserted.size = index.size + node.count := by
      rw [size, ← Array.length_toList, hnodes, List.length_append, List.length_map,
        length_occurrencesBelow, Array.length_toList, size]
    have hsize : listed.size = index.size + node.count :=
      (size_addChild inserted parent index.size).trans hlength
    have hdirectory : listed.directory = index.directory := directory_insert ..
    have hlisted : listed.nodes.toList =
        index.nodes.toList.modify parent (TreeEntry.adopt [index.size]) ++
          (occurrencesBelow (around.node :: around.above) (some parent) index.size node).map
            (Occurrence.entry (Path.ofString index.directory)) := by
      rw [nodes_addChild, hnodes, modify_append_of_lt (by rwa [Array.length_toList])]
    have hrest := nodes_insertAll listed parent around nodes (by omega)
    rw [hsize, hdirectory, hlisted, modify_append_of_lt (by simpa [size] using h),
      List.modify_modify_eq, TreeEntry.adopt_comp_adopt, List.append_assoc,
      ← List.map_append] at hrest
    rw [insertAll_cons]
    exact hrest

end

/-- The index of a tree holds the entries of its instances in pre-order. -/
theorem nodes_ofTree (directory : String) (tree : SourceTree) :
    (ofTree directory tree).nodes.toList =
      tree.occurrences.map (Occurrence.entry (Path.ofString directory)) :=
  nodes_insert { empty with directory } none [] tree

theorem lawful_ofTree (directory : String) (tree : SourceTree) :
    (ofTree directory tree).Lawful :=
  (lawful_empty directory).insert none (VirtualName.root tree) tree

/-! ## Looking up -/

/-- A register leads to the last entry with a key. -/
theorem Records.bind_eq {κ : Type} [DecidableEq κ] {register : Register κ Nat}
    {key? : TreeEntry → Option κ} (h : Records register key? index.nodes.toList)
    (hindex : index.Lawful) (key : κ) :
    ((register.find? key).bind fun id => index.nodes[id]?) =
      index.findLast? (key? · == some key) := by
  rw [h key, ← findLast?]
  cases hfound : index.findLast? (key? · == some key) with
  | none => rfl
  | some entry =>
      obtain ⟨id, hid⟩ := List.mem_iff_getElem?.mp
        (List.mem_reverse.mp (List.mem_of_find?_eq_some hfound))
      rw [Array.getElem?_toList] at hid
      rw [Option.map_some, Option.bind_some, hindex.id_eq id entry hid, hid]

theorem Lawful.ofPlace?_eq (h : index.Lawful) (place : String) :
    index.ofPlace? place = index.findLast? (·.place == place) :=
  h.byPlace.bind_eq h place

/-- A file that is not found as it is spelled is found in normal form, and only there, because no
other files are recorded. -/
theorem Lawful.ofFile?_eq (h : index.Lawful) (path : Path) :
    index.ofFile? path = index.findLast? (·.file == some path.normalize) := by
  rw [← h.byFile.bind_eq h path.normalize, ofFile?]
  cases hspelled : index.byFile.find? path with
  | none => rfl
  | some id =>
      have hrecorded := h.byFile path
      rw [hspelled] at hrecorded
      obtain ⟨entry, hfound, -⟩ := Option.map_eq_some_iff.mp hrecorded.symm
      have hmem := List.mem_reverse.mp (List.mem_of_find?_eq_some hfound)
      have hfile := List.find?_some hfound
      rw [h.normalize_file entry hmem path (beq_iff_eq.mp hfile), hspelled]
      rfl

end TreeIndex

end LuauWorkspace
