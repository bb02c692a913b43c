import LuauWorkspace.Proofs.SourceTree.Preorder
import LuauWorkspace.Resolver.Resolution
import Mathlib.Data.List.Nodup

/-! # The order of siblings

Two trees that differ in the order of siblings have the same instances at the same places, although
each of them may stand at another position in the index. When no two instances share a place or a
file, whatever is looked up in one index is found in the other as well. -/

namespace LuauWorkspace

/-! ## Trees -/

namespace SourceTree

/-- The trees differ only in the order of siblings, anywhere in the tree. -/
inductive Reordered : SourceTree → SourceTree → Prop where
  | siblings {name className : String} {files : List String} {children others : List SourceTree}
      {metadata : Option Json} (h : children.Perm others) :
      Reordered (.mk name className files children metadata)
        (.mk name className files others metadata)
  | inside {name className : String} {files : List String} {before after : List SourceTree}
      {child other : SourceTree} {metadata : Option Json} (h : Reordered child other) :
      Reordered (.mk name className files (before ++ child :: after) metadata)
        (.mk name className files (before ++ other :: after) metadata)
  | trans {tree other third : SourceTree} (h : Reordered tree other)
      (h' : Reordered other third) : Reordered tree third

theorem Reordered.name_eq {tree other : SourceTree} (h : tree.Reordered other) :
    tree.name = other.name := by
  induction h with
  | siblings _ => rfl
  | inside _ _ => rfl
  | trans _ _ ih ih' => exact ih.trans ih'

theorem Reordered.root_eq {tree other : SourceTree} (h : tree.Reordered other) :
    VirtualName.root tree = VirtualName.root other := by
  induction h with
  | siblings _ => rfl
  | inside _ _ => rfl
  | trans _ _ ih ih' => exact ih.trans ih'

end SourceTree

namespace TreeIndex

open SourceTree

/-! ## Instances without their positions -/

/-- What an index says of an instance when positions do not count: the entry without its position
and its links, and the place of the parent. -/
def card (index : TreeIndex) (entry : TreeEntry) : TreeEntry × Option String :=
  ({ entry with id := 0, parent := none, children := [] }, (index.parent? entry).map (·.place))

/-- What is to be said of the instance at a location. -/
def cardAt (base : Path) (location : Location) : TreeEntry × Option String :=
  (TreeEntry.ofTree base location.node 0 location.place none,
    location.parent?.map Location.place)

mutual

/-- What is to be said of all instances of a tree whose topmost one is at `place`. -/
def cards (base : Path) (place : String) (above : Option String) :
    SourceTree → List (TreeEntry × Option String)
  | node@(.mk _ _ _ children _) =>
    (TreeEntry.ofTree base node 0 place none, above) :: cardsAll base place children

/-- What is to be said of the children of the instance at a place and of all below them. -/
def cardsAll (base : Path) (place : String) : List SourceTree → List (TreeEntry × Option String)
  | [] => []
  | node :: nodes =>
    cards base (VirtualName.child place node.name) (some place) node ++ cardsAll base place nodes

end

theorem cardsAll_eq_flatMap (base : Path) (place : String) (nodes : List SourceTree) :
    cardsAll base place nodes = nodes.flatMap fun node =>
      cards base (VirtualName.child place node.name) (some place) node := by
  induction nodes with
  | nil => rfl
  | cons node nodes ih => rw [cardsAll, ih, List.flatMap_cons]

/-- The order of siblings is the order of what is said of them. -/
theorem perm_cards {tree other : SourceTree} (h : tree.Reordered other) (base : Path)
    (place : String) (above : Option String) :
    (cards base place above tree).Perm (cards base place above other) := by
  induction h generalizing place above with
  | siblings hperm =>
      rw [cards, cards, cardsAll_eq_flatMap, cardsAll_eq_flatMap]
      exact (hperm.flatMap_right _).cons _
  | inside h ih =>
      rw [cards, cards, cardsAll_eq_flatMap, cardsAll_eq_flatMap]
      simp only [List.flatMap_append, List.flatMap_cons, ← h.name_eq]
      exact (((ih _ _).append_right _).append_left _).cons _
  | trans _ _ ih ih' => exact (ih place above).trans (ih' place above)

mutual

theorem map_cardAt_locationsBelow (base : Path) (above : List SourceTree) :
    ∀ node : SourceTree, (locationsBelow above node).map (cardAt base) =
      cards base (Location.place ⟨node, above⟩)
        ((Location.parent? ⟨node, above⟩).map Location.place) node
  | .mk name className files children metadata => by
    rw [locationsBelow, cards, List.map_cons]
    exact congrArg _ (map_cardAt_locationsBelowAll base ⟨_, above⟩ children)

theorem map_cardAt_locationsBelowAll (base : Path) (around : Location) :
    ∀ nodes : List SourceTree,
      (locationsBelowAll (around.node :: around.above) nodes).map (cardAt base) =
        cardsAll base around.place nodes
  | [] => rfl
  | node :: nodes => by
    rw [locationsBelowAll, cardsAll, List.map_append, map_cardAt_locationsBelow,
      map_cardAt_locationsBelowAll base around]
    rfl

end

theorem Represents.card_eq {directory : String} {tree : SourceTree} {location : Location}
    {entry : TreeEntry} (h : Represents directory tree location entry) :
    (ofTree directory tree).card entry = cardAt (Path.ofString directory) location := by
  have hparent := map_eq_of_rel (rel_parent? h) fun _ _ hup => hup.place_eq.symm
  obtain ⟨id, parent, -, rfl⟩ := h
  exact Prod.ext rfl hparent.symm

/-- The cards of an index are those of the locations of its tree. -/
theorem map_card_ofTree (directory : String) (tree : SourceTree) :
    (ofTree directory tree).nodes.toList.map (ofTree directory tree).card =
      cards (Path.ofString directory) (VirtualName.root tree) none tree := by
  have hcards : tree.locations.map (cardAt (Path.ofString directory)) =
      cards (Path.ofString directory) (VirtualName.root tree) none tree :=
    map_cardAt_locationsBelow (Path.ofString directory) [] tree
  rw [← hcards, ← map_location_occurrences, nodes_ofTree, List.map_map, List.map_map]
  refine List.map_congr_left fun occurrence hmem => Represents.card_eq ⟨_, _, ?_, rfl⟩
  exact lies_of_mem_occurrencesBelow tree .top hmem

/-- Indices of trees that differ in the order of siblings say the same of the same instances. -/
theorem perm_map_card {tree other : SourceTree} (h : tree.Reordered other) (directory : String) :
    ((ofTree directory tree).nodes.toList.map (ofTree directory tree).card).Perm
      ((ofTree directory other).nodes.toList.map (ofTree directory other).card) := by
  rw [map_card_ofTree, map_card_ofTree, ← h.root_eq]
  exact perm_cards h _ _ _

/-! ## Links and distinct instances -/

/-- The links of an index fit together: the children of an instance are those whose parent it is,
their places continue its place, and walks towards the top end there. -/
structure IsLinked (index : TreeIndex) : Prop where
  mem_children_iff : ∀ entry ∈ index.nodes.toList, ∀ child ∈ index.nodes.toList,
    (child ∈ index.children entry ↔ index.parent? child = some entry)
  place_eq : ∀ child ∈ index.nodes.toList, ∀ parent, index.parent? child = some parent →
    child.place = VirtualName.child parent.place child.name
  ancestry : ∀ entry ∈ index.nodes.toList, index.Ancestry entry (index.ancestors entry)

theorem isLinked_ofTree (directory : String) (tree : SourceTree) :
    (ofTree directory tree).IsLinked where
  mem_children_iff entry hentry child hchild := by
    obtain ⟨_, childId, hat⟩ := exists_represents_of_mem hchild
    rw [TreeIndex.children, List.mem_filterMap]
    constructor
    · rintro ⟨id', hmem, hget⟩
      obtain ⟨_, id, hentryAt⟩ := exists_represents_of_mem hentry
      rw [parent?, (mem_children_iff hentryAt.getElem? hget).mp hmem, Option.bind_some,
        hentryAt.getElem?]
    · intro hparent
      obtain ⟨id, hlink, hget⟩ := Option.bind_eq_some_iff.mp hparent
      exact ⟨childId, (mem_children_iff hget hat.getElem?).mpr hlink, hat.getElem?⟩
  place_eq child hchild parent hparent := by
    obtain ⟨⟨node, above⟩, id, hat⟩ := exists_represents_of_mem hchild
    cases above with
    | nil =>
        rw [parent?, hat.parent_top.2] at hparent
        cases hparent
    | cons next above =>
        obtain ⟨up, found, hlink⟩ := hat.exists_parent
        obtain rfl := Option.some.inj (hlink.parent?_eq.symm.trans hparent)
        exact hlink.place_eq
  ancestry entry hentry := by
    obtain ⟨location, id, hat⟩ := exists_represents_of_mem hentry
    exact (ancestors_spec hat).1

/-- No two instances of an index share a place or a file. -/
structure Distinct (index : TreeIndex) : Prop where
  places : (index.nodes.toList.map (·.place)).Nodup
  files : (index.nodes.toList.filterMap (·.file)).Nodup

variable {index other : TreeIndex} {entry entry' : TreeEntry}

theorem Distinct.eq_of_place_eq (h : index.Distinct) (hentry : entry ∈ index.nodes.toList)
    (hentry' : entry' ∈ index.nodes.toList) (hplace : entry.place = entry'.place) :
    entry = entry' :=
  List.inj_on_of_nodup_map h.places hentry hentry' hplace

theorem Distinct.eq_of_file_eq (h : index.Distinct) (hentry : entry ∈ index.nodes.toList)
    (hentry' : entry' ∈ index.nodes.toList) {file : Path} (hfile : entry.file = some file)
    (hfile' : entry'.file = some file) : entry = entry' := by
  have hpairwise := List.pairwise_filterMap.mp h.files
  generalize index.nodes.toList = nodes at hentry hentry' hpairwise
  induction nodes with
  | nil => cases hentry
  | cons first nodes ih =>
      obtain ⟨hfirst, hrest⟩ := List.pairwise_cons.mp hpairwise
      rcases List.mem_cons.mp hentry with rfl | hmem
      · rcases List.mem_cons.mp hentry' with rfl | hmem'
        · rfl
        · exact absurd rfl (hfirst entry' hmem' file hfile file hfile')
      · rcases List.mem_cons.mp hentry' with rfl | hmem'
        · exact absurd rfl (hfirst entry hmem file hfile' file hfile)
        · exact ih hmem hmem' hrest

/-! ## Counterparts -/

/-- Two indices without ambiguity that say the same of the same instances. -/
structure Agree (index other : TreeIndex) : Prop where
  perm : (index.nodes.toList.map index.card).Perm (other.nodes.toList.map other.card)
  distinct : index.Distinct
  distinct' : other.Distinct
  linked : index.IsLinked
  linked' : other.IsLinked
  lawful : index.Lawful
  lawful' : other.Lawful

theorem Agree.symm (h : Agree index other) : Agree other index :=
  ⟨h.perm.symm, h.distinct', h.distinct, h.linked', h.linked, h.lawful', h.lawful⟩

theorem agree_ofTree {tree reordered : SourceTree} (h : tree.Reordered reordered)
    {directory : String} (hdistinct : (ofTree directory tree).Distinct) :
    Agree (ofTree directory tree) (ofTree directory reordered) := by
  have hperm := perm_map_card h directory
  refine ⟨hperm, hdistinct, ⟨?_, ?_⟩, isLinked_ofTree _ _, isLinked_ofTree _ _,
    lawful_ofTree _ _, lawful_ofTree _ _⟩
  · have hplaces := hperm.map (·.1.place)
    rw [List.map_map, List.map_map] at hplaces
    exact hplaces.nodup_iff.mp hdistinct.places
  · have hfiles := hperm.filterMap (·.1.file)
    rw [List.filterMap_map, List.filterMap_map] at hfiles
    exact hfiles.nodup_iff.mp hdistinct.files

/-- Entries of two indices for one instance. -/
structure Counterpart (index other : TreeIndex) (entry entry' : TreeEntry) : Prop where
  mem : entry ∈ index.nodes.toList
  mem' : entry' ∈ other.nodes.toList
  card_eq : index.card entry = other.card entry'

namespace Counterpart

theorem symm (h : Counterpart index other entry entry') : Counterpart other index entry' entry :=
  ⟨h.mem', h.mem, h.card_eq.symm⟩

theorem name_eq (h : Counterpart index other entry entry') : entry.name = entry'.name :=
  congrArg (·.1.name) h.card_eq

theorem place_eq (h : Counterpart index other entry entry') : entry.place = entry'.place :=
  congrArg (·.1.place) h.card_eq

theorem file_eq (h : Counterpart index other entry entry') : entry.file = entry'.file :=
  congrArg (·.1.file) h.card_eq

theorem kind?_eq (h : Counterpart index other entry entry') : entry.kind? = entry'.kind? :=
  congrArg (fun card : TreeEntry × Option String => CodeKind.ofClass? card.1.className) h.card_eq

theorem directoryLike_eq (h : Counterpart index other entry entry') :
    entry.directoryLike = entry'.directoryLike :=
  congrArg (·.1.directoryLike) h.card_eq

end Counterpart

namespace Agree

variable (h : Agree index other)

include h

theorem exists_counterpart (hentry : entry ∈ index.nodes.toList) :
    ∃ entry', Counterpart index other entry entry' := by
  have hmem := h.perm.mem_iff.mp (List.mem_map_of_mem (f := index.card) hentry)
  obtain ⟨entry', hentry', hcard⟩ := List.mem_map.mp hmem
  exact ⟨entry', hentry, hentry', hcard.symm⟩

/-- Entries at one place are counterparts. -/
theorem counterpart_of_place_eq (hentry : entry ∈ index.nodes.toList)
    (hentry' : entry' ∈ other.nodes.toList) (hplace : entry.place = entry'.place) :
    Counterpart index other entry entry' := by
  obtain ⟨found, hfound⟩ := h.exists_counterpart hentry
  obtain rfl := h.distinct'.eq_of_place_eq hfound.mem' hentry' (hfound.place_eq.symm.trans hplace)
  exact hfound

/-! ## Looking up -/

theorem rel_findLast? {condition : TreeEntry → Bool}
    (hwanted : ∀ entry entry', Counterpart index other entry entry' →
      condition entry = condition entry')
    (hunique : ∀ entry ∈ other.nodes.toList, ∀ entry' ∈ other.nodes.toList,
      condition entry = true → condition entry' = true → entry = entry') :
    Option.Rel (Counterpart index other) (index.findLast? condition)
      (other.findLast? condition) := by
  refine rel_find?_of_unique (fun entry hentry => ?_) (fun entry hentry => ?_) hwanted
    fun entry hentry entry' hentry' => hunique entry (List.mem_reverse.mp hentry) entry'
      (List.mem_reverse.mp hentry')
  · obtain ⟨entry', hcounterpart⟩ := h.exists_counterpart (List.mem_reverse.mp hentry)
    exact ⟨entry', List.mem_reverse.mpr hcounterpart.mem', hcounterpart⟩
  · obtain ⟨entry', hcounterpart⟩ := h.symm.exists_counterpart (List.mem_reverse.mp hentry)
    exact ⟨entry', List.mem_reverse.mpr hcounterpart.mem', hcounterpart.symm⟩

theorem rel_ofPlace? (place : String) :
    Option.Rel (Counterpart index other) (index.ofPlace? place) (other.ofPlace? place) := by
  rw [h.lawful.ofPlace?_eq, h.lawful'.ofPlace?_eq]
  refine h.rel_findLast? (fun entry entry' hcounterpart => by rw [hcounterpart.place_eq]) ?_
  intro entry hentry entry' hentry' hplace hplace'
  rw [beq_iff_eq] at hplace hplace'
  exact h.distinct'.eq_of_place_eq hentry hentry' (hplace.trans hplace'.symm)

theorem rel_ofFile? (path : Path) :
    Option.Rel (Counterpart index other) (index.ofFile? path) (other.ofFile? path) := by
  rw [h.lawful.ofFile?_eq, h.lawful'.ofFile?_eq]
  refine h.rel_findLast? (fun entry entry' hcounterpart => by rw [hcounterpart.file_eq]) ?_
  intro entry hentry entry' hentry' hfile hfile'
  rw [beq_iff_eq] at hfile hfile'
  exact h.distinct'.eq_of_file_eq hentry hentry' hfile hfile'

/-! ## Steps -/

variable (hentry : Counterpart index other entry entry')

include hentry

theorem rel_parent? :
    Option.Rel (Counterpart index other) (index.parent? entry) (other.parent? entry') := by
  have hplaces : (index.parent? entry).map (·.place) = (other.parent? entry').map (·.place) :=
    congrArg Prod.snd hentry.card_eq
  cases hparent : index.parent? entry with
  | none =>
      rw [hparent, Option.map_none, eq_comm, Option.map_eq_none_iff] at hplaces
      rw [hplaces]
      exact .none
  | some parent =>
      rw [hparent, Option.map_some, eq_comm, Option.map_eq_some_iff] at hplaces
      obtain ⟨parent', hparent', hplace⟩ := hplaces
      rw [hparent']
      exact .some (h.counterpart_of_place_eq (mem_of_parent? hparent) (mem_of_parent? hparent')
        hplace.symm)

/-- Children have counterparts among the children of a counterpart. -/
theorem exists_counterpart_of_mem_children {child : TreeEntry}
    (hchild : child ∈ index.children entry) :
    ∃ child' ∈ other.children entry', Counterpart index other child child' := by
  have hmem := mem_of_mem_children hchild
  obtain ⟨child', hcounterpart⟩ := h.exists_counterpart hmem
  have hparent := (h.linked.mem_children_iff entry hentry.mem child hmem).mp hchild
  have hrel := h.rel_parent? hcounterpart
  rw [hparent] at hrel
  obtain ⟨parent', hparent', hrelated⟩ := exists_right_of_rel hrel
  obtain rfl := h.distinct'.eq_of_place_eq hrelated.mem' hentry.mem'
    (hrelated.place_eq.symm.trans hentry.place_eq)
  exact ⟨child', (h.linked'.mem_children_iff _ hentry.mem' child' hcounterpart.mem').mpr hparent',
    hcounterpart⟩

theorem rel_child? (name : String) :
    Option.Rel (Counterpart index other) (index.child? entry name)
      (other.child? entry' name) := by
  have hplace : ∀ child ∈ other.children entry', child.name = name →
      child ∈ other.nodes.toList ∧ child.place = VirtualName.child entry'.place name := by
    intro child hchild hname
    have hmem := mem_of_mem_children hchild
    refine ⟨hmem, ?_⟩
    rw [h.linked'.place_eq child hmem entry'
      ((h.linked'.mem_children_iff _ hentry.mem' child hmem).mp hchild), hname]
  refine rel_find?_of_unique
    (fun child hchild => h.exists_counterpart_of_mem_children hentry hchild)
    (fun child hchild => ?_) (fun child child' hcounterpart => by rw [hcounterpart.name_eq]) ?_
  · obtain ⟨child', hchild', hcounterpart⟩ :=
      h.symm.exists_counterpart_of_mem_children hentry.symm hchild
    exact ⟨child', hchild', hcounterpart.symm⟩
  · intro child hchild child' hchild' hname hname'
    obtain ⟨hmem, heq⟩ := hplace child hchild (beq_iff_eq.mp hname)
    obtain ⟨hmem', heq'⟩ := hplace child' hchild' (beq_iff_eq.mp hname')
    exact h.distinct'.eq_of_place_eq hmem hmem' (heq.trans heq'.symm)

theorem rel_start? :
    Option.Rel (Counterpart index other) (index.start? entry) (other.start? entry') := by
  rw [start?, start?, hentry.directoryLike_eq]
  split
  · exact .some hentry
  · exact h.rel_parent? hentry

theorem rel_follow? (piece : List Char) :
    Option.Rel (Counterpart index other) (index.follow? entry piece)
      (other.follow? entry' piece) := by
  rw [follow?.eq_def, follow?.eq_def]
  split
  · exact .some hentry
  · exact .some hentry
  · exact h.rel_parent? hentry
  · exact h.rel_child? hentry _

theorem rel_foldlM_follow? (pieces : List (List Char)) :
    Option.Rel (Counterpart index other) (pieces.foldlM index.follow? entry)
      (pieces.foldlM other.follow? entry') := by
  induction pieces generalizing entry entry' with
  | nil => exact .some hentry
  | cons piece pieces ih =>
      exact rel_bind (h.rel_follow? hentry piece) fun next next' hnext => ih hnext

theorem forall₂_of_ancestry {above above' : List TreeEntry} (habove : index.Ancestry entry above)
    (habove' : other.Ancestry entry' above') :
    List.Forall₂ (Counterpart index other) above above' := by
  induction habove generalizing entry' above' with
  | top hnone =>
      have hrel := h.rel_parent? hentry
      cases habove' with
      | top _ => exact .nil
      | step hparent' _ =>
          rw [hnone, hparent'] at hrel
          cases hrel
  | step hparent _ ih =>
      have hrel := h.rel_parent? hentry
      cases habove' with
      | top hnone' =>
          rw [hparent, hnone'] at hrel
          cases hrel
      | step hparent' habove' =>
          rw [hparent, hparent'] at hrel
          cases hrel with
          | some hup => exact .cons hup (ih hup habove')

/-- The ancestors of counterparts are counterparts, one by one. -/
theorem forall₂_ancestors :
    List.Forall₂ (Counterpart index other) (index.ancestors entry) (other.ancestors entry') :=
  h.forall₂_of_ancestry hentry (h.linked.ancestry entry hentry.mem)
    (h.linked'.ancestry entry' hentry.mem')

theorem rel_nearestNamed? (name : String) :
    Option.Rel (Counterpart index other) (index.nearestNamed? entry name)
      (other.nearestNamed? entry' name) :=
  rel_find? (h.forall₂_ancestors hentry) fun above above' habove => by rw [habove.name_eq]

theorem rel_nearestWithFile? :
    Option.Rel (Counterpart index other) (index.nearestWithFile? entry)
      (other.nearestWithFile? entry') :=
  rel_find? (.cons hentry (h.forall₂_ancestors hentry)) fun above above' habove => by
    rw [habove.file_eq]

omit hentry

theorem rel_relative? (context require : String) :
    Option.Rel (Counterpart index other) (index.relative? context require)
      (other.relative? context require) := by
  refine rel_bind (h.rel_ofPlace? context) fun entry entry' hentry => ?_
  refine rel_bind (h.rel_start? hentry) fun start start' hstart => ?_
  exact h.rel_foldlM_follow? hstart _

end Agree

end TreeIndex

end LuauWorkspace
