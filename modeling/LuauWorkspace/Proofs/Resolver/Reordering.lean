import LuauWorkspace.Proofs.Resolver.Cascade
import LuauWorkspace.Proofs.Require.Meaning
import LuauWorkspace.Proofs.SourceTree.Reordering

/-! # Answers do not depend on the order of siblings

Two source trees that differ in the order of siblings, and in which no two instances share a place
or a file, make a resolver answer all questions alike. -/

namespace LuauWorkspace

open VirtualName

/-! ## Walks -/

namespace RequireArgument

variable {index other : TreeIndex}

theorem step_eq_of_agree (h : index.Agree other) (base : ResolvedModule) (method name : String) :
    evaluateCall.step other base method name = evaluateCall.step index base method name := by
  rw [evaluateCall.step.eq_def, evaluateCall.step.eq_def]
  split
  · rfl
  · rfl
  · rfl
  · refine (bind_eq_of_rel (h.rel_ofPlace? base.name) fun entry entry' hentry => ?_).symm
    refine bind_eq_of_rel (h.rel_nearestNamed? hentry name) fun above above' habove => ?_
    rw [habove.place_eq]
  · rfl

theorem evaluate_eq_of_agree (h : index.Agree other) (self : Option String)
    (expr : RequireArgument) : evaluate other self expr = evaluate index self expr := by
  induction expr using receiver_induction with
  | literal text => rfl
  | dynamic => rfl
  | global name =>
      rw [evaluate_global, evaluate_global]
  | field base name ih => rw [evaluate, evaluate, ih]
  | key base name ih => rw [evaluate, evaluate, ih]
  | call base method args ih =>
      have hcall : ∀ place, evaluateCall other place method args =
          evaluateCall index place method args := by
        intro place
        rw [evaluateCall_eq, evaluateCall_eq]
        exact congrArg _ (funext (step_eq_of_agree h place method))
      rw [evaluate, evaluate, ih, funext hcall]

theorem resolveWalk?_eq_of_agree (h : index.Agree other) (self : Option String)
    (expr : RequireArgument) : resolveWalk? other self expr = resolveWalk? index self expr := by
  rw [resolveWalk?, resolveWalk?, evaluate_eq_of_agree h]
  refine congrArg _ (funext fun place => ?_)
  refine (bind_eq_of_rel (h.rel_ofPlace? place.name) fun entry entry' hentry => ?_).symm
  rw [hentry.place_eq]

end RequireArgument

namespace Resolver

/-- A resolver with another index in force. -/
def withIndex (r : Resolver) (index : TreeIndex) : Resolver := { r with index }

theorem index_withIndex (r : Resolver) (index : TreeIndex) : (r.withIndex index).index = index :=
  rfl

variable {r : Resolver} {other : TreeIndex} {disk : FileSystem}

/-! ## Names -/

section Names

variable (h : r.index.Agree other)

include h

theorem nameOfPath_withIndex (path : Path) :
    (r.withIndex other).nameOfPath path = r.nameOfPath path := by
  have hname : ∀ r : Resolver, r.nameOfPath path =
      ((r.index.ofFile? (r.absolute path)).map (·.place)).getD (r.absolute path).toString := by
    intro r
    rw [nameOfPath]
    cases r.index.ofFile? (r.absolute path) with
    | none => rfl
    | some node => rfl
  have hplace := map_eq_of_rel (h.rel_ofFile? (r.absolute path))
    fun entry entry' hentry => hentry.place_eq
  rw [hname, hname, hplace]
  rfl

theorem nameOfUri_withIndex (uri : Uri) :
    (r.withIndex other).nameOfUri uri = r.nameOfUri uri := by
  rw [nameOfUri, nameOfUri]
  split
  · exact nameOfPath_withIndex h _
  · rfl

theorem placeOf?_withIndex (name : String) :
    (r.withIndex other).placeOf? name = r.placeOf? name := by
  rw [placeOf?, placeOf?, node?, node?]
  split
  · exact (map_eq_of_rel (h.rel_ofPlace? name) fun entry entry' hentry => hentry.place_eq).symm
  · exact (map_eq_of_rel (h.rel_ofFile? _) fun entry entry' hentry => hentry.place_eq).symm

theorem fileOf?_withIndex (name : String) :
    (r.withIndex other).fileOf? name = r.fileOf? name := by
  rw [fileOf?, fileOf?]
  split
  · exact (bind_eq_of_rel (h.rel_ofPlace? name) fun entry entry' hentry => hentry.file_eq).symm
  · rfl

theorem contextPath?_withIndex (name : String) :
    (r.withIndex other).contextPath? name = r.contextPath? name := by
  rw [contextPath?, contextPath?]
  split
  · refine (bind_eq_of_rel (h.rel_ofPlace? name) fun entry entry' hentry => ?_).symm
    exact bind_eq_of_rel (h.rel_nearestWithFile? hentry) fun above above' habove => habove.file_eq
  · rfl

theorem codeFile?_withIndex (name : String) :
    (r.withIndex other).codeFile? name = r.codeFile? name := by
  rw [codeFile?, codeFile?]
  split
  · refine (bind_eq_of_rel (h.rel_ofPlace? name) fun entry entry' hentry => ?_).symm
    rw [hentry.file_eq, hentry.kind?_eq]
  · rfl

theorem startDirectory_withIndex (disk : FileSystem) (context : Option String) :
    (r.withIndex other).startDirectory disk context = r.startDirectory disk context := by
  have hcontext : context.bind (r.withIndex other).contextPath? = context.bind r.contextPath? :=
    congrArg _ (funext (contextPath?_withIndex h))
  rw [startDirectory, startDirectory, hcontext]
  rfl

theorem document?_withIndex (disk : FileSystem) (name : String) :
    (r.withIndex other).document? disk name = r.document? disk name := by
  rw [document?, document?, fileOf?_withIndex h]
  rfl

theorem source?_withIndex (disk : FileSystem) (name : String) :
    (r.withIndex other).source? disk name = r.source? disk name := by
  rw [source?, source?, codeFile?_withIndex h]
  rfl

end Names

/-! ## Configurations -/

theorem cascade_withIndex (r : Resolver) (other : TreeIndex) (disk : FileSystem)
    (configs : List (Path × AnalysisConfig)) (directory : Path) :
    (r.withIndex other).cascade disk configs directory = r.cascade disk configs directory := by
  induction hn : directory.segments.length using Nat.strongRecOn generalizing directory with
  | ind n ih =>
      have hlayer : (r.withIndex other).layer disk = r.layer disk := rfl
      cases hlookup : configs.lookup directory with
      | some config => rw [cascade_of_lookup hlookup, cascade_of_lookup hlookup]
      | none =>
          cases hparent : r.configParent? directory with
          | none =>
              have hparent' : (r.withIndex other).configParent? directory = none := hparent
              rw [cascade_of_no_parent hlookup hparent, cascade_of_no_parent hlookup hparent',
                hlayer]
              rfl
          | some parent =>
              have hparent' : (r.withIndex other).configParent? directory = some parent := hparent
              rw [cascade_of_parent hlookup hparent, cascade_of_parent hlookup hparent', hlayer,
                ih _ (hn ▸ length_configParent? hparent) parent rfl]

theorem configOfDirectory_withIndex (r : Resolver) (other : TreeIndex) (disk : FileSystem)
    (directory : Path) :
    (r.withIndex other).configOfDirectory disk directory =
      (r.configOfDirectory disk directory).map id (·.withIndex other) := by
  rw [configOfDirectory, configOfDirectory, cascade_withIndex]
  rfl

section Answers

variable (h : r.index.Agree other)

include h

theorem config_withIndex (disk : FileSystem) (name : String) :
    (r.withIndex other).config disk name =
      (r.config disk name).map id (·.withIndex other) := by
  have hdirectory : (r.withIndex other).directoryOf? disk name = r.directoryOf? disk name := by
    rw [directoryOf?, directoryOf?, contextPath?_withIndex h]
    rfl
  rw [config, config, hdirectory]
  split
  · exact configOfDirectory_withIndex r other disk _
  · rfl

theorem aliases_withIndex (disk : FileSystem) (context : Option String) :
    (r.withIndex other).aliases disk context =
      (r.aliases disk context).map id (·.withIndex other) := by
  cases context with
  | none => rfl
  | some name =>
      simp only [aliases, config_withIndex h]
      rfl

/-! ## Requires -/

theorem plainTarget_withIndex (disk : FileSystem) (context : Option String) (require : String) :
    (r.withIndex other).plainTarget disk context require =
      r.plainTarget disk context require := by
  rw [plainTarget, plainTarget, index_withIndex, startDirectory_withIndex h]
  split
  · have hrel := h.rel_ofPlace? require
    generalize r.index.ofPlace? require = found at hrel ⊢
    generalize other.ofPlace? require = found' at hrel ⊢
    cases hrel with
    | none => rfl
    | some hentry => exact congrArg RequireTarget.node hentry.place_eq.symm
  · cases context.filter isVirtual with
    | none => rfl
    | some name =>
        have hrel := h.rel_relative? name require
        simp only [fileOf?_withIndex h]
        generalize r.index.relative? name require = found at hrel ⊢
        generalize other.relative? name require = found' at hrel ⊢
        cases hrel with
        | none => rfl
        | some hentry => exact congrArg RequireTarget.node hentry.place_eq.symm

theorem target_withIndex (disk : FileSystem) (context : Option String) (require : String) :
    (r.withIndex other).target disk context require =
      (r.target disk context require).map id (·.withIndex other) := by
  refine Prod.ext ?_ ?_
  · change _ = (r.target disk context require).1
    rw [target_fst, target_fst, aliases_withIndex h, plainTarget_withIndex h]
    rfl
  · change _ = (r.target disk context require).2.withIndex other
    have hsettings : (r.withIndex other).settings = r.settings := rfl
    rw [target_snd, target_snd, aliases_withIndex h, hsettings]
    cases r.settings.require.fileAliases.find? require with
    | some target => rfl
    | none => rfl

theorem moduleOf?_withIndex (disk : FileSystem) (target : RequireTarget) :
    (r.withIndex other).moduleOf? disk target = r.moduleOf? disk target := by
  cases target with
  | path path =>
      rw [moduleOf?, moduleOf?, moduleAt?, moduleAt?, funext (nameOfPath_withIndex h)]
      rfl
  | node name => rfl
  | nowhere => rfl

theorem resolveString_withIndex (disk : FileSystem) (context : Option String)
    (require : String) :
    (r.withIndex other).resolveString disk context require =
      (r.resolveString disk context require).map id (·.withIndex other) := by
  refine Prod.ext ?_ ?_
  · change _ = (r.resolveString disk context require).1
    rw [resolveString_fst, resolveString_fst, moduleOf?_withIndex h, target_withIndex h]
    rfl
  · change ((r.withIndex other).target disk context require).2 = _
    rw [target_withIndex h]
    rfl

theorem resolve_withIndex (disk : FileSystem) (context : Option String)
    (require : RequireArgument) :
    (r.withIndex other).resolve disk context require =
      (r.resolve disk context require).map id (·.withIndex other) := by
  have hcontext : context.bind (r.withIndex other).placeOf? = context.bind r.placeOf? :=
    congrArg _ (funext (placeOf?_withIndex h))
  have hwalk : (RequireArgument.resolveWalk? other (context.bind (r.withIndex other).placeOf?)
      require, r.withIndex other) =
        (RequireArgument.resolveWalk? r.index (context.bind r.placeOf?) require,
          r.withIndex other) := by
    rw [hcontext, RequireArgument.resolveWalk?_eq_of_agree h]
  cases require with
  | literal require => exact resolveString_withIndex h disk context require
  | _ => exact hwalk

/-! ## All questions -/

theorem ask_withIndex (disk : FileSystem) (query : Query) :
    query.ask (r.withIndex other) disk = (query.ask r disk).map id (·.withIndex other) := by
  cases query with
  | config name => rw [Query.ask, config_withIndex h]; rfl
  | directoryConfig directory => rw [Query.ask, configOfDirectory_withIndex]; rfl
  | resolve context require => rw [Query.ask, resolve_withIndex h]; rfl
  | source name => rw [Query.ask, source?_withIndex h]; rfl
  | document name => rw [Query.ask, document?_withIndex h]; rfl
  | nameOfPath path => rw [Query.ask, nameOfPath_withIndex h]; rfl
  | nameOfUri uri => rw [Query.ask, nameOfUri_withIndex h]; rfl
  | place name => rw [Query.ask, placeOf?_withIndex h]; rfl
  | file name => rw [Query.ask, fileOf?_withIndex h]; rfl
  | uri name => rw [Query.ask, uri?, fileOf?_withIndex h]; rfl
  | displayName name => rfl
  | startDirectory context => rw [Query.ask, startDirectory_withIndex h]; rfl

end Answers

theorem index_ask (r : Resolver) (disk : FileSystem) (query : Query) :
    (query.ask r disk).2.index = r.index := by
  obtain ⟨configs, hkeeps⟩ := r.ask_keeps disk query
  rw [hkeeps]

theorem index_askAll (r : Resolver) (disk : FileSystem) (queries : List Query) :
    (Query.askAll r disk queries).index = r.index := by
  induction queries generalizing r with
  | nil => rfl
  | cons query queries ih => exact (ih _).trans (index_ask r disk query)

theorem askAll_withIndex (h : r.index.Agree other) (disk : FileSystem) (queries : List Query) :
    Query.askAll (r.withIndex other) disk queries =
      (Query.askAll r disk queries).withIndex other := by
  induction queries generalizing r with
  | nil => rfl
  | cons query queries ih =>
      have hrest := ih (r := (query.ask r disk).2) (index_ask r disk query ▸ h)
      rw [Query.askAll, List.foldl_cons, ask_withIndex h]
      exact hrest

/-- After a source tree has been put in force, all questions are answered in the same way as after
one that differs from it in the order of siblings, however many questions have been asked before. No
two instances of the tree may share a place or a file. -/
theorem ask_of_reordered {tree reordered : SourceTree} (h : tree.Reordered reordered)
    (r : Resolver) (hdistinct : (TreeIndex.ofTree r.root.toString tree).Distinct)
    (disk : FileSystem) (before : List Query) (query : Query) :
    (query.ask (Query.askAll (r.setTree reordered) disk before) disk).1 =
      (query.ask (Query.askAll (r.setTree tree) disk before) disk).1 := by
  have hagree : (r.setTree tree).index.Agree (TreeIndex.ofTree r.root.toString reordered) :=
    TreeIndex.agree_ofTree h hdistinct
  have hasked := askAll_withIndex hagree disk before
  have hagree' := (index_askAll (r.setTree tree) disk before).symm ▸ hagree
  have hafter := ask_withIndex hagree' disk query
  change Query.askAll (r.setTree reordered) disk before = _ at hasked
  rw [hasked, hafter]
  rfl

/-- A project with two modules. -/
def pairTree : SourceTree :=
  .mk "p" "Folder" []
    [.mk "A" "ModuleScript" ["a.luau"] [] none, .mk "B" "ModuleScript" ["b.luau"] [] none] none

/-- The same project with the modules in the other order. -/
def swappedTree : SourceTree :=
  .mk "p" "Folder" []
    [.mk "B" "ModuleScript" ["b.luau"] [] none, .mk "A" "ModuleScript" ["a.luau"] [] none] none

/-- The modules stand at other positions of the index and are found as before. -/
theorem ask_of_reordered_swapped :
    let r := Resolver.create none (Path.ofString "/proj") {}
    pairTree.Reordered swappedTree ∧ (TreeIndex.ofTree r.root.toString pairTree).Distinct ∧
      (r.setTree pairTree).index.nodes[1]?.map (·.place) = some "ProjectRoot/A" ∧
      (r.setTree swappedTree).index.nodes[1]?.map (·.place) = some "ProjectRoot/B" ∧
      ∀ disk before (query : Query),
        (query.ask (Query.askAll (r.setTree swappedTree) disk before) disk).1 =
          (query.ask (Query.askAll (r.setTree pairTree) disk before) disk).1 := by
  intro r
  have hreordered : pairTree.Reordered swappedTree := .siblings (.swap _ _ _)
  have hdistinct : (TreeIndex.ofTree r.root.toString pairTree).Distinct :=
    ⟨by decide +kernel, by decide +kernel⟩
  exact ⟨hreordered, hdistinct, by decide +kernel, by decide +kernel,
    ask_of_reordered hreordered r hdistinct⟩

end Resolver

end LuauWorkspace
