import LuauWorkspace.FileSystem.Memory
import LuauWorkspace.Proofs.Require.Meaning
import LuauWorkspace.Resolver.Resolution

/-! # Walks are followed on the tree

A module stands for an instance by its place or by its file. From there the resolver follows a walk
as the tree has it, when the tree is unambiguous. -/

namespace LuauWorkspace

open VirtualName

namespace Resolver

/-- The instance that a name stands for in a tree: the last one with the place, or the last one with
the file. -/
def locationOf? (r : Resolver) (tree : SourceTree) (name : String) : Option Location :=
  if isVirtual name then tree.atPlace? name
  else tree.atFile? (Path.ofString r.root.toString) (r.path name)

variable {r : Resolver} {tree : SourceTree}

theorem rel_node? (hindex : r.index = TreeIndex.ofTree r.root.toString tree) (name : String) :
    Option.Rel (TreeIndex.Represents r.root.toString tree) (r.locationOf? tree name)
      (r.node? name) := by
  rw [locationOf?, node?, hindex]
  split
  · exact TreeIndex.rel_ofPlace? _ tree name
  · exact TreeIndex.rel_ofFile? _ tree (r.path name)

theorem placeOf?_eq (hindex : r.index = TreeIndex.ofTree r.root.toString tree) (name : String) :
    r.placeOf? name = (r.locationOf? tree name).map Location.place := by
  have hrel := rel_node? hindex name
  rw [placeOf?]
  generalize r.locationOf? tree name = location at hrel ⊢
  generalize r.node? name = entry at hrel ⊢
  cases hrel with
  | none => rfl
  | some h => exact congrArg some h.place_eq

theorem mem_of_locationOf? {name : String} {location : Location}
    (h : r.locationOf? tree name = some location) : location ∈ tree.locations := by
  rw [locationOf?] at h
  split at h
  · exact List.mem_reverse.mp (List.mem_of_find?_eq_some h)
  · exact List.mem_reverse.mp (List.mem_of_find?_eq_some h)

/-- In an unambiguous tree a walk resolves to the instance that it leads to; it resolves to nothing
else, unless it goes up by `Parent`. -/
theorem resolve_of_unambiguous (hindex : r.index = TreeIndex.ofTree r.root.toString tree)
    (htree : tree.Unambiguous) (disk : FileSystem) (context : Option String)
    {expr : RequireArgument} (hexpr : ∀ text, expr ≠ .literal text) (hplain : expr.IsPlain) :
    let walk := expr.walk? tree (context.bind (r.locationOf? tree))
    let found := (r.resolve disk context expr).1
    (∀ location, walk = some location → found = some ⟨location.place, expr.mayFail⟩) ∧
      (expr.asksParent = false → ∀ module, found = some module →
        ∃ location, walk = some location) := by
  intro walk found
  have hself : ∀ location, context.bind (r.locationOf? tree) = some location →
      location ∈ tree.locations := by
    intro location hlocation
    obtain ⟨name, -, hname⟩ := Option.bind_eq_some_iff.mp hlocation
    exact mem_of_locationOf? hname
  have hcontext : context.bind r.placeOf? =
      (context.bind (r.locationOf? tree)).map Location.place := by
    rw [Option.map_bind]
    exact congrArg _ (funext (placeOf?_eq hindex))
  have hfound : found = RequireArgument.resolveWalk? (TreeIndex.ofTree r.root.toString tree)
      ((context.bind (r.locationOf? tree)).map Location.place) expr := by
    rw [← hcontext, ← hindex]
    cases expr with
    | literal text => exact absurd rfl (hexpr text)
    | _ => rfl
  rw [hfound]
  constructor
  · intro location hwalk
    exact RequireArgument.resolveWalk?_of_walk? htree.hasPlainPlaces hself hwalk
  · intro hparent module hmodule
    exact RequireArgument.exists_walk?_of_resolveWalk? htree.hasPlainPlaces hself hplain hparent
      hmodule

/-! ## A game with two modules -/

/-- A game in which one service holds the modules `Main` and `Util`. -/
def serviceTree : SourceTree :=
  .mk "Place" "DataModel" []
    [.mk "ReplicatedStorage" "ReplicatedStorage" []
      [.mk "Main" "ModuleScript" ["main.luau"] [] none,
        .mk "Util" "ModuleScript" ["util.luau"] [] none] none] none

/-- The walk `script:FindFirstAncestor("ReplicatedStorage"):FindFirstChild("Util")`. -/
def siblingWalk : RequireArgument :=
  .call (.call (.global "script") "FindFirstAncestor" [.literal "ReplicatedStorage"])
    "FindFirstChild" [.literal "Util"]

/-- From its file, one module finds the other by way of their service. -/
theorem resolve_of_unambiguous_sibling :
    let r := (Resolver.create none (Path.ofString "/proj") {}).setTree serviceTree
    let context := some "/proj/main.luau"
    serviceTree.Unambiguous ∧ siblingWalk.IsPlain ∧ siblingWalk.asksParent = false ∧
      (r.resolve MemoryFiles.empty.fileSystem context siblingWalk).1 =
        some ⟨"game/ReplicatedStorage/Util", true⟩ ∧
      ∃ location, siblingWalk.walk? serviceTree (context.bind (r.locationOf? serviceTree)) =
        some location ∧ location.place = "game/ReplicatedStorage/Util" := by
  intro r context
  have htree : serviceTree.Unambiguous := ⟨by decide, by decide⟩
  have hplain : siblingWalk.IsPlain := by
    simp [siblingWalk, RequireArgument.IsPlain]
  have hwalk := resolve_of_unambiguous (r := r) rfl htree MemoryFiles.empty.fileSystem context
    (by rintro text ⟨⟩) hplain
  have hfound : (r.resolve MemoryFiles.empty.fileSystem context siblingWalk).1 =
      some ⟨"game/ReplicatedStorage/Util", true⟩ := by decide +kernel
  obtain ⟨location, hlocation⟩ := hwalk.2 rfl _ hfound
  have hplace := hwalk.1 location hlocation
  rw [hfound] at hplace
  obtain ⟨hplace, -⟩ := ResolvedModule.mk.inj (Option.some.inj hplace)
  exact ⟨htree, hplain, rfl, hfound, location, hlocation, hplace.symm⟩

end Resolver

end LuauWorkspace
