import LuauWorkspace.FileSystem.Memory
import LuauWorkspace.Proofs.Require.Relative

/-! # Strings and walks agree in the tree

In an unambiguous tree a relative require that is written as a string and the same steps written as
a walk lead to the same instance. Only a walk that leaves the tree at its top comes back where the
string finds nothing. -/

namespace LuauWorkspace

open VirtualName

namespace TreeIndex

open SourceTree

variable {directory : String} {tree : SourceTree} {location : Location} {entry : TreeEntry}

/-- A string leads to the entry of the instance that its steps lead to. -/
theorem rel_relative? (directory : String) (htree : tree.HasPlainPlaces)
    (h : location ∈ tree.locations) {moves : List Move} (hmoves : Move.IsWritable moves)
    {require : String} (hrequire : Move.Spells moves require) :
    Option.Rel (Represents directory tree)
      (location.start?.bind (moves.foldlM Location.follow?))
      ((ofTree directory tree).relative? location.place require) := by
  obtain ⟨entry, hentry, hrepresents⟩ := exists_ofPlace?_place directory htree h
  obtain ⟨idle, hidle, hpieces⟩ := hrequire.exists_splitOn hmoves
  simp only [relative?, hentry, hpieces, Option.bind_eq_bind, Option.bind_some]
  exact rel_bind (rel_start? hrepresents) fun start below hstart =>
    rel_foldlM_spelling hstart hidle hmoves.isProper

end TreeIndex

namespace Resolver

variable {r : Resolver} {directory : String} {tree : SourceTree}

theorem placeOf?_place (hindex : r.index = TreeIndex.ofTree directory tree)
    (htree : tree.HasPlainPlaces) {location : Location} (h : location ∈ tree.locations) :
    r.placeOf? location.place = some location.place := by
  obtain ⟨entry, hentry, hrepresents⟩ := TreeIndex.exists_ofPlace?_place directory htree h
  have hvirtual := SourceTree.isVirtual_place location h
  rw [placeOf?, node?, if_pos hvirtual, hindex, hentry, Option.map_some, hrepresents.place_eq]

theorem resolve_fst_of_ne_literal (r : Resolver) (disk : FileSystem) (context : Option String)
    {expr : RequireArgument} (h : ∀ text, expr ≠ .literal text) :
    (r.resolve disk context expr).1 =
      expr.resolveWalk? r.index (context.bind r.placeOf?) := by
  cases expr with
  | literal text => exact absurd rfl (h text)
  | _ => rfl

/-- A walk in an instance resolves from the instance at which relative requires start. -/
theorem resolve_walk (hindex : r.index = TreeIndex.ofTree directory tree)
    (htree : tree.HasPlainPlaces) (disk : FileSystem) {location : Location}
    (h : location ∈ tree.locations) (moves : List Move) :
    (r.resolve disk (some location.place) (Move.walk location.directoryLike moves)).1 =
      (moves.foldl Move.extend (.global "script")).resolveWalk? (TreeIndex.ofTree directory tree)
        (location.start?.map Location.place) := by
  rw [resolve_fst_of_ne_literal r disk _ (Move.walk_ne_literal _ moves), Option.bind_some,
    placeOf?_place hindex htree h, hindex, Move.resolveWalk?_walk htree h]

/-- In an unambiguous tree, what the steps of a relative require lead to when they are written as a
string is what they resolve to when they are written as a walk. Steps that never go up lead there as
a string whenever they resolve as a walk. -/
theorem resolve_of_relative? (hindex : r.index = TreeIndex.ofTree directory tree)
    (htree : tree.Unambiguous) (disk : FileSystem) {node : TreeEntry}
    (hnode : node ∈ r.index.nodes.toList) {moves : List Move} (hmoves : Move.IsWritable moves)
    {require : String} (hrequire : Move.Spells moves require) :
    let led := r.index.relative? node.place require
    let found := (r.resolve disk (some node.place) (Move.walk node.directoryLike moves)).1
    (∀ last, led = some last → found = some ⟨last.place, false⟩) ∧
      (.up ∉ moves → ∀ module, found = some module →
        ∃ last, led = some last ∧ module = ⟨last.place, false⟩) := by
  intro led found
  rw [hindex] at hnode
  have hplaces := htree.hasPlainPlaces
  obtain ⟨location, hrepresents⟩ := TreeIndex.exists_represents_of_mem hnode
  have hmem := hrepresents.mem_locations
  have hled : Option.Rel (TreeIndex.Represents directory tree)
      (location.start?.bind (moves.foldlM Location.follow?)) led := by
    have hrel := TreeIndex.rel_relative? directory hplaces hmem hmoves hrequire
    rwa [← hrepresents.place_eq, ← hindex] at hrel
  have hfound := resolve_walk hindex hplaces disk hmem moves
  rw [← hrepresents.place_eq, ← hrepresents.directoryLike_eq] at hfound
  have hself : ∀ start, location.start? = some start → start ∈ tree.locations := by
    intro start hstart
    have hrel := TreeIndex.rel_start? hrepresents
    rw [hstart] at hrel
    obtain ⟨below, -, hbelow⟩ := exists_right_of_rel hrel
    exact hbelow.mem_locations
  have hwalk : (moves.foldl Move.extend (.global "script")).walk? tree location.start? =
      location.start?.bind (moves.foldlM Location.follow?) := Move.walk?_foldl moves _
  have hsteps : ∀ last, led = some last → found = some ⟨last.place, false⟩ := by
    intro last hlast
    rw [hlast] at hled
    obtain ⟨target, htarget, hlastEntry⟩ := exists_left_of_rel hled
    have hresolved := hfound.trans
      (RequireArgument.resolveWalk?_of_walk? hplaces hself (hwalk.trans htarget))
    rw [Move.mayFail_foldl, ← hlastEntry.place_eq] at hresolved
    exact hresolved
  refine ⟨hsteps, fun hup module hmodule => ?_⟩
  have hplain : (moves.foldl Move.extend (.global "script")).IsPlain :=
    Move.isPlain_foldl hmoves.isProper trivial
  obtain ⟨target, htarget⟩ := RequireArgument.exists_walk?_of_resolveWalk? hplaces hself hplain
    (Move.asksParent_foldl hup _) (hfound.symm.trans hmodule)
  rw [hwalk.symm.trans htarget] at hled
  obtain ⟨last, hlast, -⟩ := exists_right_of_rel hled
  exact ⟨last, hlast, Option.some.inj (hmodule.symm.trans (hsteps last hlast))⟩

/-- A project in which the module `Net` holds the module `Wire` and stands beside `Util`. -/
def nestedTree : SourceTree :=
  .mk "proj" "Folder" []
    [.mk "Net" "ModuleScript" ["net/init.luau"]
        [.mk "Wire" "ModuleScript" ["net/wire.luau"] [] none] none,
      .mk "Util" "ModuleScript" ["util.luau"] [] none] none

/-- From `Wire`, the string `../Util.lua` leads where `script.Parent.Parent["Util"]` resolves, and
`script.Parent["Wire"]` resolves where `./Wire` leads. -/
theorem resolve_of_relative?_nested :
    let r := (Resolver.create none (Path.ofString "/proj") {}).setTree nestedTree
    let disk := MemoryFiles.empty.fileSystem
    nestedTree.Unambiguous ∧ ∃ node ∈ r.index.nodes.toList,
      node.place = "ProjectRoot/Net/Wire" ∧ node.directoryLike = false ∧
      Move.Spells [.up, .down "Util"] "../Util.lua" ∧ Move.Spells [.down "Wire"] "./Wire" ∧
      (r.resolve disk (some node.place) (Move.walk node.directoryLike [.up, .down "Util"])).1 =
        some ⟨"ProjectRoot/Util", false⟩ ∧
      ∃ last, r.index.relative? node.place "./Wire" = some last ∧
        last.place = "ProjectRoot/Net/Wire" := by
  intro r disk
  have htree : nestedTree.Unambiguous := ⟨by decide, by decide⟩
  have hup : Move.IsWritable [.up, .down "Util"] := ⟨by decide, by rintro name ⟨⟩; decide⟩
  have hdown : Move.IsWritable [.down "Wire"] := ⟨by decide, by rintro name ⟨⟩; decide⟩
  have hutil : Move.Spells [.up, .down "Util"] "../Util.lua" := by
    have htext : "../Util.lua" = "" ++ Move.joined [.up, .down "Util"] ++ "." ++ "lua" := by
      decide +kernel
    rw [htext]
    exact .extended (by decide) rfl (by decide)
  have hwire : Move.Spells [.down "Wire"] "./Wire" := by
    have htext : "./Wire" = "./" ++ Move.joined [.down "Wire"] := by decide +kernel
    rw [htext]
    exact .plain (by decide)
  obtain ⟨node, hnode⟩ : ∃ node, r.index.nodes[2]? = some node := ⟨_, rfl⟩
  have hmem : node ∈ r.index.nodes.toList :=
    List.mem_of_getElem? (by rwa [Array.getElem?_toList])
  have hplace : r.index.nodes[2]?.map (·.place) = some "ProjectRoot/Net/Wire" := by decide +kernel
  have hlike : r.index.nodes[2]?.map (·.directoryLike) = some false := by decide +kernel
  rw [hnode] at hplace hlike
  have hplace : node.place = "ProjectRoot/Net/Wire" := Option.some.inj hplace
  have hlike : node.directoryLike = false := Option.some.inj hlike
  have hled : (r.index.relative? node.place "../Util.lua").map (·.place) =
      some "ProjectRoot/Util" := by
    rw [hplace]
    decide +kernel
  have hfound : (r.resolve disk (some node.place) (Move.walk node.directoryLike
      [.down "Wire"])).1 = some ⟨"ProjectRoot/Net/Wire", false⟩ := by
    rw [hplace, hlike]
    decide +kernel
  obtain ⟨last, hlast, hlastPlace⟩ := Option.map_eq_some_iff.mp hled
  have hresolved := (resolve_of_relative? (r := r) rfl htree disk hmem hup hutil).1 last hlast
  rw [hlastPlace] at hresolved
  obtain ⟨below, hbelow, hbelowPlace⟩ :=
    (resolve_of_relative? (r := r) rfl htree disk hmem hdown hwire).2 (by decide) _ hfound
  exact ⟨htree, node, hmem, hplace, hlike, hutil, hwire, hresolved, below, hbelow,
    (ResolvedModule.mk.inj hbelowPlace).1.symm⟩

end Resolver

end LuauWorkspace
