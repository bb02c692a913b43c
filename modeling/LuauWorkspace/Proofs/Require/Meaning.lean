import LuauWorkspace.Proofs.SourceTree.Unambiguous
import LuauWorkspace.Require.Walk

/-! # What walks mean on the tree

A walk goes from instance to instance. In an unambiguous tree the resolver gets to the same instance
although it only writes down its place and looks at the tree when the walk is over. -/

namespace LuauWorkspace

open VirtualName

namespace Location

/-- Whether the instance is the game itself. -/
def isGame (location : Location) : Bool :=
  location.above.isEmpty && location.node.className == "DataModel"

/-- The instance that a method called with a name finds. -/
def call? (location : Location) (method name : String) : Option Location :=
  match method with
  | "GetService" => if location.isGame then location.child? name else none
  | "WaitForChild" => location.child? name
  | "FindFirstChild" => location.child? name
  | "FindFirstAncestor" => location.ancestors.find? (·.node.name == name)
  | _ => none

end Location

namespace RequireArgument

/-! ## Walks on the tree -/

/-- The name that a method is called with. A call has one string and at most one further
argument. -/
def argument? : List RequireArgument → Option String
  | [.literal name] => some name
  | [.literal name, _] => some name
  | _ => none

/-- The instance that a walk leads to when `script` is the instance at `self`. -/
def walk? (tree : SourceTree) (self : Option Location) : RequireArgument → Option Location
  | .global "game" => if tree.className = "DataModel" then some ⟨tree, []⟩ else none
  | .global "script" => self
  | .global _ => none
  | .field base name => do
    let location ← walk? tree self base
    if name = "Parent" then location.parent? else location.child? name
  | .key base name => do (← walk? tree self base).child? name
  | .call base method args => do (← walk? tree self base).call? method (← argument? args)
  | .literal _ => none
  | .dynamic => none

/-- Whether a walk asks for a child that may be missing. -/
def mayFail : RequireArgument → Bool
  | .field base _ => mayFail base
  | .key base _ => mayFail base
  | .call base method _ => method == "FindFirstChild" || mayFail base
  | .literal _ => false
  | .global _ => false
  | .dynamic => false

/-- Whether a walk goes up by `Parent`. -/
def asksParent : RequireArgument → Bool
  | .field base name => name == "Parent" || asksParent base
  | .key base _ => asksParent base
  | .call base _ _ => asksParent base
  | .literal _ => false
  | .global _ => false
  | .dynamic => false

/-- No name in a walk holds a separator. -/
def IsPlain : RequireArgument → Prop
  | .field base name => IsPlain base ∧ '/' ∉ name.toList
  | .key base name => IsPlain base ∧ '/' ∉ name.toList
  | .call base _ args => IsPlain base ∧ ∀ name, .literal name ∈ args → '/' ∉ name.toList
  | .literal _ => True
  | .global _ => True
  | .dynamic => True

/-- What holds of a walk when it holds of the walk without the last step holds of all walks. -/
@[elab_as_elim]
theorem receiver_induction {motive : RequireArgument → Prop}
    (literal : ∀ text, motive (.literal text)) (global : ∀ name, motive (.global name))
    (field : ∀ base name, motive base → motive (.field base name))
    (key : ∀ base name, motive base → motive (.key base name))
    (call : ∀ base method args, motive base → motive (.call base method args))
    (dynamic : motive .dynamic) : ∀ expr, motive expr
  | .literal text => literal text
  | .global name => global name
  | .field base name =>
    field base name (receiver_induction literal global field key call dynamic base)
  | .key base name =>
    key base name (receiver_induction literal global field key call dynamic base)
  | .call base method args =>
    call base method args (receiver_induction literal global field key call dynamic base)
  | .dynamic => dynamic

theorem evaluateCall_eq (index : TreeIndex) (base : ResolvedModule) (method : String)
    (args : List RequireArgument) :
    evaluateCall index base method args =
      (argument? args).bind (evaluateCall.step index base method) := by
  cases args with
  | nil => rfl
  | cons first rest =>
      cases rest with
      | nil => cases first <;> rfl
      | cons second rest =>
          cases rest with
          | nil => cases first <;> rfl
          | cons third rest => cases first <;> rfl

theorem mem_of_argument? {args : List RequireArgument} {name : String}
    (h : argument? args = some name) : .literal name ∈ args := by
  rw [argument?.eq_def] at h
  split at h
  · obtain rfl := Option.some.inj h
    exact List.mem_cons_self
  · obtain rfl := Option.some.inj h
    exact List.mem_cons_self
  · cases h

theorem walk?_global (tree : SourceTree) (self : Option Location) (name : String) :
    walk? tree self (.global name) =
      if name = "game" then if tree.className = "DataModel" then some ⟨tree, []⟩ else none
      else if name = "script" then self else none := by
  rw [walk?.eq_def]
  split <;> simp_all

theorem evaluate_global (index : TreeIndex) (self : Option String) (name : String) :
    evaluate index self (.global name) =
      if name = "game" then some { name := game }
      else if name = "script" then self.map fun name => { name } else none := by
  rw [evaluate.eq_def]
  split <;> simp_all

variable {directory : String} {tree : SourceTree} {location location' : Location}

/-! ## From instances to places -/

theorem isGame_iff (h : location ∈ tree.locations) :
    location.isGame = true ↔ location.place = game := by
  rw [SourceTree.place_eq_game_iff h, Location.isGame, Bool.and_eq_true, List.isEmpty_iff,
    beq_iff_eq]
  obtain ⟨node, above⟩ := location
  constructor
  · rintro ⟨rfl, hclass⟩
    obtain rfl := SourceTree.eq_of_top_mem h
    exact ⟨rfl, hclass⟩
  · rintro ⟨heq, hclass⟩
    obtain ⟨rfl, rfl⟩ := Location.mk.inj heq
    exact ⟨rfl, hclass⟩

/-- Where a method finds an instance, the resolver gets to its place. -/
theorem step_of_call? (htree : tree.HasPlainPlaces) (h : location ∈ tree.locations)
    {method name : String} (hcall : location.call? method name = some location')
    (optional : Bool) :
    location' ∈ tree.locations ∧
      evaluateCall.step (TreeIndex.ofTree directory tree) ⟨location.place, optional⟩ method name =
        some ⟨location'.place, method == "FindFirstChild" || optional⟩ := by
  rw [Location.call?.eq_def] at hcall
  split at hcall
  · rw [Option.ite_none_right_eq_some] at hcall
    obtain ⟨hgame, hchild⟩ := hcall
    obtain ⟨hmem, hplace⟩ := SourceTree.child?_eq_some h hchild
    simp [evaluateCall.step, enter, (isGame_iff h).mp hgame, hmem, hplace]
  · obtain ⟨hmem, hplace⟩ := SourceTree.child?_eq_some h hcall
    simp [evaluateCall.step, enter, hmem, hplace]
  · obtain ⟨hmem, hplace⟩ := SourceTree.child?_eq_some h hcall
    simp [evaluateCall.step, enter, hmem, hplace]
  · obtain ⟨entry, hentry, hrepresents⟩ := TreeIndex.exists_ofPlace?_place directory htree h
    have hrel := TreeIndex.rel_nearestNamed? hrepresents name
    rw [hcall] at hrel
    obtain ⟨ancestor, hfound, hancestor⟩ := exists_right_of_rel hrel
    simp [evaluateCall.step, hentry, hfound, hancestor.mem_locations, hancestor.place_eq]
  · cases hcall

/-- Where a walk leads to an instance, the resolver gets to its place. -/
theorem evaluate_of_walk? (directory : String) (htree : tree.HasPlainPlaces)
    {self : Option Location}
    (hself : ∀ location, self = some location → location ∈ tree.locations)
    {expr : RequireArgument} (h : walk? tree self expr = some location) :
    location ∈ tree.locations ∧
      evaluate (TreeIndex.ofTree directory tree) (self.map Location.place) expr =
        some ⟨location.place, expr.mayFail⟩ := by
  induction expr using receiver_induction generalizing location with
  | literal text => cases h
  | dynamic => cases h
  | global name =>
      rw [walk?_global] at h
      split at h
      · next hname =>
          obtain ⟨hclass, htop⟩ := Option.ite_none_right_eq_some.mp h
          obtain rfl := Option.some.inj htop
          have hmem := tree.top_mem_locations
          have hplace := (SourceTree.place_eq_game_iff hmem).mpr ⟨rfl, hclass⟩
          rw [evaluate_global, if_pos hname, hplace]
          exact ⟨hmem, rfl⟩
      · next hname =>
          obtain ⟨hscript, rfl⟩ := Option.ite_none_right_eq_some.mp h
          rw [evaluate_global, if_neg hname, if_pos hscript]
          exact ⟨hself location rfl, rfl⟩
  | field base name ih =>
      obtain ⟨before, hbase, hstep⟩ := Option.bind_eq_some_iff.mp h
      obtain ⟨hmem, heval⟩ := ih hbase
      rw [evaluate, heval]
      by_cases hname : name = "Parent"
      · rw [if_pos hname] at hstep
        obtain ⟨hup, hplace⟩ := SourceTree.parent?_eq_some htree hmem hstep
        simp [hname, hplace, hup, mayFail]
      · rw [if_neg hname] at hstep
        obtain ⟨hchild, hplace⟩ := SourceTree.child?_eq_some hmem hstep
        simp [hname, hplace, hchild, mayFail, enter]
  | key base name ih =>
      obtain ⟨before, hbase, hstep⟩ := Option.bind_eq_some_iff.mp h
      obtain ⟨hmem, heval⟩ := ih hbase
      obtain ⟨hchild, hplace⟩ := SourceTree.child?_eq_some hmem hstep
      rw [evaluate, heval]
      simp [hplace, hchild, mayFail, enter]
  | call base method args ih =>
      obtain ⟨before, hbase, hstep⟩ := Option.bind_eq_some_iff.mp h
      obtain ⟨name, hname, hcall⟩ := Option.bind_eq_some_iff.mp hstep
      obtain ⟨hmem, heval⟩ := ih hbase
      rw [evaluate, heval, Option.bind_eq_bind, Option.bind_some, evaluateCall_eq, hname]
      exact step_of_call? htree hmem hcall base.mayFail

/-! ## From places to instances -/

/-- Where the resolver gets to the place of an instance by a method, the method finds the
instance. -/
theorem call?_of_step (htree : tree.HasPlainPlaces) {base found : ResolvedModule}
    {method name : String} (hname : '/' ∉ name.toList)
    (hstep : evaluateCall.step (TreeIndex.ofTree directory tree) base method name = some found)
    (h : location ∈ tree.locations) (hfound : found.name = location.place) :
    ∃ up ∈ tree.locations, up.place = base.name ∧ up.call? method name = some location := by
  have hchild : ∀ optional, some { enter base name with optional } = some found →
      ∃ up ∈ tree.locations, up.place = base.name ∧ up.child? name = some location := by
    intro optional heq
    obtain rfl := Option.some.inj heq
    exact SourceTree.exists_child?_of_place_eq htree hname h hfound.symm
  rw [evaluateCall.step.eq_def] at hstep
  split at hstep
  · obtain ⟨hgame, heq⟩ := Option.ite_none_right_eq_some.mp hstep
    obtain ⟨up, hmem, hplace, hup⟩ := hchild _ heq
    refine ⟨up, hmem, hplace, ?_⟩
    have hisGame := (isGame_iff hmem).mpr (hplace.trans hgame)
    simp [Location.call?, hisGame, hup]
  · exact hchild _ hstep
  · exact hchild _ hstep
  · obtain ⟨entry, hentry, hrest⟩ := Option.bind_eq_some_iff.mp hstep
    obtain ⟨ancestor, hancestor, heq⟩ := Option.bind_eq_some_iff.mp hrest
    obtain rfl := Option.some.inj heq
    obtain ⟨up, hup, hplace⟩ := TreeIndex.exists_represents_of_ofPlace? hentry
    have hrel := TreeIndex.rel_nearestNamed? hup name
    rw [hancestor] at hrel
    obtain ⟨around, hwalk, haround⟩ := exists_left_of_rel hrel
    obtain rfl := htree.eq_of_place_eq haround.mem_locations h (haround.place_eq.symm.trans hfound)
    exact ⟨up, hup.mem_locations, hplace, hwalk⟩
  · cases hstep

/-- Where the resolver gets to the place of an instance without `Parent`, the walk leads to the
instance. -/
theorem walk?_of_evaluate (htree : tree.HasPlainPlaces) {self : Option Location}
    (hself : ∀ location, self = some location → location ∈ tree.locations)
    {expr : RequireArgument} (hplain : expr.IsPlain) (hparent : expr.asksParent = false)
    {found : ResolvedModule}
    (heval : evaluate (TreeIndex.ofTree directory tree) (self.map Location.place) expr =
      some found)
    (h : location ∈ tree.locations) (hfound : found.name = location.place) :
    walk? tree self expr = some location := by
  induction expr using receiver_induction generalizing location found with
  | literal text => cases heval
  | dynamic => cases heval
  | global name =>
      rw [evaluate_global] at heval
      rw [walk?_global]
      split at heval
      · next hname =>
          obtain rfl := Option.some.inj heval
          obtain ⟨rfl, hclass⟩ := (SourceTree.place_eq_game_iff h).mp hfound.symm
          rw [if_pos hname, if_pos hclass]
      · next hname =>
          obtain ⟨hscript, heq⟩ := Option.ite_none_right_eq_some.mp heval
          rw [if_neg hname, if_pos hscript]
          cases self with
          | none => cases heq
          | some start =>
              obtain rfl := Option.some.inj heq
              rw [htree.eq_of_place_eq (hself start rfl) h hfound]
  | field base name ih =>
      obtain ⟨hbase, hname⟩ := hplain
      rw [asksParent, Bool.or_eq_false_iff, beq_eq_false_iff_ne] at hparent
      obtain ⟨place, hplace, heq⟩ := Option.bind_eq_some_iff.mp heval
      rw [if_neg hparent.1] at heq
      obtain rfl := Option.some.inj heq
      obtain ⟨up, hmem, hup, hchild⟩ :=
        SourceTree.exists_child?_of_place_eq htree hname h hfound.symm
      rw [walk?, ih hbase hparent.2 hplace hmem hup.symm]
      simp [hparent.1, hchild]
  | key base name ih =>
      obtain ⟨hbase, hname⟩ := hplain
      obtain ⟨place, hplace, heq⟩ := Option.bind_eq_some_iff.mp heval
      obtain rfl := Option.some.inj heq
      obtain ⟨up, hmem, hup, hchild⟩ :=
        SourceTree.exists_child?_of_place_eq htree hname h hfound.symm
      rw [walk?, ih hbase hparent hplace hmem hup.symm]
      exact hchild
  | call base method args ih =>
      obtain ⟨hbase, hargs⟩ := hplain
      obtain ⟨place, hplace, heq⟩ := Option.bind_eq_some_iff.mp heval
      rw [evaluateCall_eq] at heq
      obtain ⟨name, hargument, hstep⟩ := Option.bind_eq_some_iff.mp heq
      have hname := hargs name (mem_of_argument? hargument)
      obtain ⟨up, hmem, hup, hcall⟩ := call?_of_step htree hname hstep h hfound
      rw [walk?, ih hbase hparent hplace hmem hup.symm, hargument]
      exact hcall

/-! ## What is resolved -/

theorem resolveWalk?_of_walk? (htree : tree.HasPlainPlaces) {self : Option Location}
    (hself : ∀ location, self = some location → location ∈ tree.locations)
    {expr : RequireArgument} (h : walk? tree self expr = some location) :
    resolveWalk? (TreeIndex.ofTree directory tree) (self.map Location.place) expr =
      some ⟨location.place, expr.mayFail⟩ := by
  obtain ⟨hmem, heval⟩ := evaluate_of_walk? directory htree hself h
  obtain ⟨entry, hentry, hrepresents⟩ :=
    TreeIndex.exists_ofPlace?_place directory htree hmem
  rw [resolveWalk?, heval, Option.bind_eq_bind, Option.bind_some, hentry, Option.bind_eq_bind,
    Option.bind_some, hrepresents.place_eq]
  rfl

theorem exists_walk?_of_resolveWalk? (htree : tree.HasPlainPlaces) {self : Option Location}
    (hself : ∀ location, self = some location → location ∈ tree.locations)
    {expr : RequireArgument} (hplain : expr.IsPlain) (hparent : expr.asksParent = false)
    {found : ResolvedModule}
    (h : resolveWalk? (TreeIndex.ofTree directory tree) (self.map Location.place) expr =
      some found) :
    ∃ location, walk? tree self expr = some location := by
  obtain ⟨place, heval, hrest⟩ := Option.bind_eq_some_iff.mp h
  obtain ⟨entry, hentry, -⟩ := Option.bind_eq_some_iff.mp hrest
  obtain ⟨location, hrepresents, hplace⟩ := TreeIndex.exists_represents_of_ofPlace? hentry
  exact ⟨location,
    walk?_of_evaluate htree hself hplain hparent heval hrepresents.mem_locations hplace.symm⟩

end RequireArgument

end LuauWorkspace
