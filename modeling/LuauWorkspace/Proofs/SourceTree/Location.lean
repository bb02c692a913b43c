import LuauWorkspace.Path.Normal
import LuauWorkspace.SourceTree.Basic
import Mathlib.Data.List.Basic

/-! # Locations in a tree

A location is an instance with the instances around it. The instances of a tree stand at the
positions of its pre-order, and from every location steps lead to the parent and the children. -/

namespace LuauWorkspace

/-- An instance with the instances around it, the nearest first. -/
structure Location where
  node : SourceTree
  above : List SourceTree

namespace Location

/-! ## Ways from a location -/

/-- The location of a child. -/
def enter (location : Location) (child : SourceTree) : Location :=
  ⟨child, location.node :: location.above⟩

/-- The location of the parent. -/
def parent? : Location → Option Location
  | ⟨_, []⟩ => none
  | ⟨_, next :: above⟩ => some ⟨next, above⟩

/-- The location of the first child with a given name. -/
def child? (location : Location) (name : String) : Option Location :=
  (location.node.children.find? (·.name == name)).map location.enter

/-- The locations of the ancestors, the nearest first. -/
def ancestors (location : Location) : List Location := around location.above
where
  /-- The locations of instances each of which is around the one before. -/
  around : List SourceTree → List Location
    | [] => []
    | next :: above => ⟨next, above⟩ :: around above

/-! ## What a location has -/

/-- The name in the tree: that of the tree, followed by the names down to the instance. -/
def place (location : Location) : String := below location.node location.above
where
  /-- The name of an instance in the tree with the instances around it. -/
  below (node : SourceTree) : List SourceTree → String
    | [] => VirtualName.root node
    | next :: above => VirtualName.child (below next above) node.name

/-- The names from the top down to the instance, without that of the topmost one. -/
def names (location : Location) : List String := below location.node location.above
where
  /-- The names down to an instance with the instances around it. -/
  below (node : SourceTree) : List SourceTree → List String
    | [] => []
    | next :: above => below next above ++ [node.name]

/-- The file that the instance claims in a project under `base`. -/
def file? (base : Path) (location : Location) : Option Path :=
  location.node.backingFile?.map fun file => Path.absoluteIn base (Path.ofString file)

theorem place_enter (location : Location) (child : SourceTree) :
    (location.enter child).place = VirtualName.child location.place child.name := rfl

theorem names_enter (location : Location) (child : SourceTree) :
    (location.enter child).names = location.names ++ [child.name] := rfl

end Location

namespace SourceTree

/-! ## All locations -/

mutual

/-- The locations of an instance and of all below it, in pre-order. -/
def locationsBelow (above : List SourceTree) : SourceTree → List Location
  | node@(mk _ _ _ children _) => ⟨node, above⟩ :: locationsBelowAll (node :: above) children

/-- The locations of siblings and of all below them. -/
def locationsBelowAll (above : List SourceTree) : List SourceTree → List Location
  | [] => []
  | node :: nodes => locationsBelow above node ++ locationsBelowAll above nodes

end

/-- The locations of a tree in pre-order. -/
def locations (tree : SourceTree) : List Location := locationsBelow [] tree

mutual

theorem map_node_locationsBelow (above : List SourceTree) :
    ∀ node : SourceTree, (locationsBelow above node).map Location.node = node.preorder
  | mk name className files children metadata => by
    rw [locationsBelow, preorder, List.map_cons, map_node_locationsBelowAll]

theorem map_node_locationsBelowAll (above : List SourceTree) :
    ∀ nodes : List SourceTree,
      (locationsBelowAll above nodes).map Location.node = preorderAll nodes
  | [] => rfl
  | node :: nodes => by
    rw [locationsBelowAll, preorderAll, List.map_append, map_node_locationsBelow,
      map_node_locationsBelowAll]

end

theorem getElem?_preorder (tree : SourceTree) (id : Nat) :
    tree.preorder[id]? = tree.locations[id]?.map Location.node := by
  rw [locations, ← List.getElem?_map, map_node_locationsBelow]

/-! ## Positions -/

theorem countAll_append (before after : List SourceTree) :
    countAll (before ++ after) = countAll before + countAll after := by
  induction before with
  | nil => rw [List.nil_append, countAll, Nat.zero_add]
  | cons node before ih => rw [List.cons_append, countAll, countAll, ih, Nat.add_assoc]

theorem count_pos (node : SourceTree) : 0 < node.count := by
  cases node
  exact Nat.succ_pos _

/-- The positions of siblings, the first of which is at `next`. -/
def positions (next : Nat) : List SourceTree → List Nat
  | [] => []
  | node :: nodes => next :: positions (next + node.count) nodes

theorem mem_positions {next id : Nat} {nodes : List SourceTree} :
    id ∈ positions next nodes ↔
      ∃ before node after, nodes = before ++ node :: after ∧ id = next + countAll before := by
  induction nodes generalizing next with
  | nil => simp [positions]
  | cons node nodes ih =>
      rw [positions, List.mem_cons, ih]
      constructor
      · rintro (rfl | ⟨before, child, after, rfl, rfl⟩)
        · exact ⟨[], node, nodes, rfl, rfl⟩
        · exact ⟨node :: before, child, after, rfl, by rw [countAll, Nat.add_assoc]⟩
      · rintro ⟨before, child, after, hnodes, rfl⟩
        cases before with
        | nil => exact .inl rfl
        | cons first before =>
            obtain ⟨rfl, rfl⟩ := List.cons.inj hnodes
            exact .inr ⟨before, child, after, rfl, by rw [countAll, Nat.add_assoc]⟩

theorem pairwise_positions (next : Nat) (nodes : List SourceTree) :
    (positions next nodes).Pairwise (· < ·) := by
  induction nodes generalizing next with
  | nil => exact .nil
  | cons node nodes ih =>
      refine .cons (fun id hmem => ?_) (ih _)
      obtain ⟨before, child, after, -, rfl⟩ := mem_positions.mp hmem
      have := count_pos node
      omega

/-- Positions of siblings are related to the siblings in the same order. -/
theorem forall₂_positions {related : Nat → SourceTree → Prop} {next : Nat}
    {nodes : List SourceTree}
    (h : ∀ before node after, nodes = before ++ node :: after →
      related (next + countAll before) node) :
    List.Forall₂ related (positions next nodes) nodes := by
  induction nodes generalizing next with
  | nil => exact .nil
  | cons node nodes ih =>
      refine .cons (h [] node nodes rfl) (ih fun before child after hnodes => ?_)
      have hlast := h (node :: before) child after (by rw [hnodes, List.cons_append])
      rwa [countAll, ← Nat.add_assoc] at hlast

end SourceTree

/-- An instance at its position in the pre-order of a tree, with the position of its parent. -/
structure Occurrence where
  id : Nat
  parent : Option Nat
  location : Location

namespace SourceTree

mutual

/-- The occurrences of an instance that stands at position `id` and of all below it, in
pre-order. -/
def occurrencesBelow (above : List SourceTree) (parent : Option Nat) (id : Nat) :
    SourceTree → List Occurrence
  | node@(mk _ _ _ children _) =>
    ⟨id, parent, ⟨node, above⟩⟩ :: occurrencesBelowAll (node :: above) id (id + 1) children

/-- The occurrences of siblings, the first of which stands at `next`, and of all below them. -/
def occurrencesBelowAll (above : List SourceTree) (parent next : Nat) :
    List SourceTree → List Occurrence
  | [] => []
  | node :: nodes =>
    occurrencesBelow above (some parent) next node ++
      occurrencesBelowAll above parent (next + node.count) nodes

end

/-- The occurrences of all instances of a tree in pre-order. -/
def occurrences (tree : SourceTree) : List Occurrence := occurrencesBelow [] none 0 tree

theorem occurrencesBelow_eq (above : List SourceTree) (parent : Option Nat) (id : Nat)
    (node : SourceTree) :
    occurrencesBelow above parent id node =
      ⟨id, parent, ⟨node, above⟩⟩ ::
        occurrencesBelowAll (node :: above) id (id + 1) node.children := by
  cases node
  rw [occurrencesBelow]
  rfl

theorem occurrencesBelowAll_append (above : List SourceTree) (parent next : Nat)
    (before after : List SourceTree) :
    occurrencesBelowAll above parent next (before ++ after) =
      occurrencesBelowAll above parent next before ++
        occurrencesBelowAll above parent (next + countAll before) after := by
  induction before generalizing next with
  | nil => rfl
  | cons node before ih =>
      rw [List.cons_append, occurrencesBelowAll, ih, occurrencesBelowAll, countAll,
        List.append_assoc, Nat.add_assoc]

mutual

theorem map_location_occurrencesBelow (above : List SourceTree) (parent : Option Nat) (id : Nat) :
    ∀ node : SourceTree,
      (occurrencesBelow above parent id node).map Occurrence.location = locationsBelow above node
  | mk name className files children metadata => by
    rw [occurrencesBelow, locationsBelow, List.map_cons, map_location_occurrencesBelowAll]

theorem map_location_occurrencesBelowAll (above : List SourceTree) (parent next : Nat) :
    ∀ nodes : List SourceTree,
      (occurrencesBelowAll above parent next nodes).map Occurrence.location =
        locationsBelowAll above nodes
  | [] => rfl
  | node :: nodes => by
    rw [occurrencesBelowAll, locationsBelowAll, List.map_append, map_location_occurrencesBelow,
      map_location_occurrencesBelowAll]

end

mutual

/-- Occurrences stand one after the other. -/
theorem map_id_occurrencesBelow (above : List SourceTree) (parent : Option Nat) (id : Nat) :
    ∀ node : SourceTree,
      (occurrencesBelow above parent id node).map Occurrence.id = List.range' id node.count
  | mk name className files children metadata => by
    rw [occurrencesBelow, List.map_cons, map_id_occurrencesBelowAll, count, List.range'_succ]

theorem map_id_occurrencesBelowAll (above : List SourceTree) (parent next : Nat) :
    ∀ nodes : List SourceTree,
      (occurrencesBelowAll above parent next nodes).map Occurrence.id =
        List.range' next (countAll nodes)
  | [] => rfl
  | node :: nodes => by
    rw [occurrencesBelowAll, List.map_append, map_id_occurrencesBelow, map_id_occurrencesBelowAll,
      countAll, List.range'_append_1]

end

theorem length_occurrencesBelow (above : List SourceTree) (parent : Option Nat) (id : Nat)
    (node : SourceTree) : (occurrencesBelow above parent id node).length = node.count := by
  rw [← List.length_map Occurrence.id, map_id_occurrencesBelow, List.length_range']

theorem length_occurrencesBelowAll (above : List SourceTree) (parent next : Nat)
    (nodes : List SourceTree) :
    (occurrencesBelowAll above parent next nodes).length = countAll nodes := by
  rw [← List.length_map Occurrence.id, map_id_occurrencesBelowAll, List.length_range']

theorem map_location_occurrences (tree : SourceTree) :
    tree.occurrences.map Occurrence.location = tree.locations :=
  map_location_occurrencesBelow [] none 0 tree

theorem length_locations (tree : SourceTree) : tree.locations.length = tree.count := by
  rw [← map_location_occurrences, List.length_map, occurrences, length_occurrencesBelow]

/-- An occurrence stands where it says. -/
theorem id_eq_of_getElem?_occurrences {tree : SourceTree} {id : Nat} {found : Occurrence}
    (h : tree.occurrences[id]? = some found) : found.id = id := by
  have hmap := congrArg (·[id]?) (map_id_occurrencesBelow [] none 0 tree)
  rw [List.getElem?_map] at hmap
  have hid : some found.id = (List.range' 0 tree.count)[id]? :=
    (congrArg (Option.map Occurrence.id) h).symm.trans hmap
  obtain ⟨hlt, hget⟩ := List.getElem?_eq_some_iff.mp hid.symm
  rw [List.getElem_range'] at hget
  omega

/-- `location` stands at position `id` of the tree, and its parent at position `parent`. -/
inductive Lies (tree : SourceTree) : Nat → Option Nat → Location → Prop where
  | top : Lies tree 0 none ⟨tree, []⟩
  | child {id : Nat} {parent : Option Nat} {location : Location} {child : SourceTree}
      {before after : List SourceTree} (h : Lies tree id parent location)
      (hchildren : location.node.children = before ++ child :: after) :
      Lies tree (id + 1 + countAll before) (some id) (location.enter child)

/-- The occurrences below a location stand together, from its position on. -/
theorem Lies.exists_occurrences_eq {tree : SourceTree} {id : Nat} {parent : Option Nat}
    {location : Location} (h : tree.Lies id parent location) :
    ∃ front back, front.length = id ∧ tree.occurrences =
      front ++ occurrencesBelow location.above parent id location.node ++ back := by
  induction h with
  | top => exact ⟨[], [], rfl, by rw [List.nil_append, List.append_nil]; rfl⟩
  | @child id parent location child before after h hchildren ih =>
      obtain ⟨front, back, hlength, heq⟩ := ih
      -- The parent and all below earlier siblings stand before the child.
      let around := location.node :: location.above
      refine ⟨front ++ ⟨id, parent, location⟩ :: occurrencesBelowAll around id (id + 1) before,
        occurrencesBelowAll around id (id + 1 + countAll before + child.count) after ++ back,
        ?_, ?_⟩
      · rw [List.length_append, List.length_cons, length_occurrencesBelowAll, hlength]
        omega
      · rw [heq, occurrencesBelow_eq, hchildren, occurrencesBelowAll_append, occurrencesBelowAll]
        simp only [around, Location.enter, List.append_assoc, List.cons_append]

theorem Lies.getElem?_occurrences {tree : SourceTree} {id : Nat} {parent : Option Nat}
    {location : Location} (h : tree.Lies id parent location) :
    tree.occurrences[id]? = some ⟨id, parent, location⟩ := by
  obtain ⟨front, back, hlength, heq⟩ := h.exists_occurrences_eq
  rw [heq, List.append_assoc, List.getElem?_append_right (by omega), hlength, Nat.sub_self,
    occurrencesBelow_eq]
  rfl

mutual

theorem lies_of_mem_occurrencesBelow {tree : SourceTree} {id : Nat} {parent : Option Nat}
    {above : List SourceTree} {found : Occurrence} :
    ∀ node : SourceTree, tree.Lies id parent ⟨node, above⟩ →
      found ∈ occurrencesBelow above parent id node →
      tree.Lies found.id found.parent found.location
  | mk name className files children metadata, h, hmem => by
    rw [occurrencesBelow_eq] at hmem
    rcases List.mem_cons.mp hmem with rfl | hmem
    · exact h
    · exact lies_of_mem_occurrencesBelowAll [] children h rfl hmem

theorem lies_of_mem_occurrencesBelowAll {tree : SourceTree} {id : Nat} {parent : Option Nat}
    {location : Location} {found : Occurrence} (before : List SourceTree) :
    ∀ nodes : List SourceTree, tree.Lies id parent location →
      location.node.children = before ++ nodes →
      found ∈ occurrencesBelowAll (location.node :: location.above) id
        (id + 1 + countAll before) nodes →
      tree.Lies found.id found.parent found.location
  | [], _, _, hmem => by cases hmem
  | child :: nodes, h, hchildren, hmem => by
    rw [occurrencesBelowAll] at hmem
    rcases List.mem_append.mp hmem with hmem | hmem
    · exact lies_of_mem_occurrencesBelow child (.child h hchildren) hmem
    · have hcount : id + 1 + countAll before + child.count =
          id + 1 + countAll (before ++ [child]) := by
        rw [countAll_append, countAll, countAll]
        omega
      rw [hcount] at hmem
      exact lies_of_mem_occurrencesBelowAll (before ++ [child]) nodes h (by simp [hchildren]) hmem

end

variable {tree node next : SourceTree} {above : List SourceTree} {id : Nat} {parent : Option Nat}
  {location : Location}

theorem exists_lies_of_getElem? (h : tree.locations[id]? = some location) :
    ∃ parent, tree.Lies id parent location := by
  rw [← map_location_occurrences, List.getElem?_map, Option.map_eq_some_iff] at h
  obtain ⟨found, hfound, rfl⟩ := h
  have hlies := lies_of_mem_occurrencesBelow tree .top (List.mem_of_getElem? hfound)
  rw [id_eq_of_getElem?_occurrences hfound] at hlies
  exact ⟨found.parent, hlies⟩

theorem Lies.getElem?_locations (h : tree.Lies id parent location) :
    tree.locations[id]? = some location := by
  rw [← map_location_occurrences, List.getElem?_map, h.getElem?_occurrences, Option.map_some]

theorem Lies.mem (h : tree.Lies id parent location) : location ∈ tree.locations :=
  List.mem_of_getElem? h.getElem?_locations

theorem exists_lies_of_mem (h : location ∈ tree.locations) :
    ∃ id parent, tree.Lies id parent location := by
  obtain ⟨id, hid⟩ := List.mem_iff_getElem?.mp h
  exact ⟨id, exists_lies_of_getElem? hid⟩

theorem Lies.eq_top (h : tree.Lies id parent ⟨node, []⟩) :
    id = 0 ∧ parent = none ∧ node = tree := by
  generalize hlocation : (⟨node, []⟩ : Location) = location at h
  cases h with
  | top => exact ⟨rfl, rfl, (Location.mk.inj hlocation).1⟩
  | child _ _ => cases hlocation

/-- A location below another one comes after it and after all below its earlier siblings. -/
theorem Lies.exists_parent (h : tree.Lies id parent ⟨node, next :: above⟩) :
    ∃ up upper before after, id = up + 1 + countAll before ∧ parent = some up ∧
      tree.Lies up upper ⟨next, above⟩ ∧ next.children = before ++ node :: after := by
  generalize hlocation : (⟨node, next :: above⟩ : Location) = location at h
  cases h with
  | top => cases hlocation
  | @child up upper location child before after h hchildren =>
      obtain ⟨rfl, habove⟩ := Location.mk.inj hlocation
      obtain ⟨rfl, rfl⟩ := List.cons.inj habove
      exact ⟨up, upper, before, after, rfl, rfl, h, hchildren⟩

/-! ## Neighbours -/

theorem top_mem_locations (tree : SourceTree) : ⟨tree, []⟩ ∈ tree.locations := Lies.top.mem

theorem eq_of_top_mem (h : ⟨node, []⟩ ∈ tree.locations) : node = tree := by
  obtain ⟨id, parent, hlies⟩ := exists_lies_of_mem h
  exact hlies.eq_top.2.2

theorem enter_mem {child : SourceTree} (h : location ∈ tree.locations)
    (hchild : child ∈ location.node.children) : location.enter child ∈ tree.locations := by
  obtain ⟨id, parent, hlies⟩ := exists_lies_of_mem h
  obtain ⟨before, after, hchildren⟩ := List.append_of_mem hchild
  exact (hlies.child hchildren).mem

theorem parent_mem (h : ⟨node, next :: above⟩ ∈ tree.locations) :
    ⟨next, above⟩ ∈ tree.locations ∧ node ∈ next.children := by
  obtain ⟨id, parent, hlies⟩ := exists_lies_of_mem h
  obtain ⟨up, upper, before, after, -, -, hup, hchildren⟩ := hlies.exists_parent
  exact ⟨hup.mem, by simp [hchildren]⟩

theorem mem_preorder_of_mem_locations (h : location ∈ tree.locations) :
    location.node ∈ tree.preorder := by
  have hmem := List.mem_map_of_mem (f := Location.node) h
  rwa [locations, map_node_locationsBelow] at hmem

/-- A property of the top that every child takes over from its parent belongs to all locations. -/
theorem locations_induction {motive : Location → Prop} (htop : motive ⟨tree, []⟩)
    (hchild : ∀ location child, location ∈ tree.locations → child ∈ location.node.children →
      motive location → motive (location.enter child)) :
    ∀ location ∈ tree.locations, motive location := by
  rintro ⟨node, above⟩ h
  induction above generalizing node with
  | nil => exact eq_of_top_mem h ▸ htop
  | cons next above ih =>
      obtain ⟨hup, hnode⟩ := parent_mem h
      exact hchild ⟨next, above⟩ node hup hnode (ih next hup)

/-- The place is the name of the tree, followed by the names down to the instance. -/
theorem place_eq : ∀ location ∈ tree.locations,
    location.place = location.names.foldl VirtualName.child (VirtualName.root tree) := by
  refine locations_induction rfl fun location child _ _ h => ?_
  rw [Location.place_enter, Location.names_enter, List.foldl_concat, h]

end SourceTree

end LuauWorkspace
