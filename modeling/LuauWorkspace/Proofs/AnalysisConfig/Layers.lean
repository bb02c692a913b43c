import LuauWorkspace.Proofs.AnalysisConfig.Reader
import LuauWorkspace.Proofs.Path.Home
import Mathlib.Data.List.Induction
import Mathlib.Data.List.Nodup

/-! # Files laid over each other

Of several files that are laid over a configuration, the last one that sets something decides. Lints
and aliases are set one by one, and globals are collected. -/

namespace LuauWorkspace

/-- A configuration file with the directory that it stands in. -/
structure ConfigLayer where
  directory : Path
  file : ConfigFile
deriving DecidableEq

namespace ConfigLayer

/-- What a layer sets a lint to. -/
def lint? (layer : ConfigLayer) (name : String) : Option Bool :=
  layer.file.lint.bind (·.find? name)

/-- The target that a layer writes down for an alias. -/
def target? (layer : ConfigLayer) (name : String) : Option String :=
  layer.file.aliases.bind (·.find? name)

/-- The target that a layer writes down for an alias, with the directory of the layer. -/
def placed? (layer : ConfigLayer) (name : String) : Option (Path × String) :=
  (layer.target? name).map fun target => (layer.directory, target)

/-- The directory that an alias stands for in a layer. -/
def alias? (home : Option String) (layer : ConfigLayer) (name : String) : Option Path :=
  (layer.target? name).map (AnalysisConfig.aliasTarget home layer.directory)

/-- The globals that a layer declares. -/
def globals (layer : ConfigLayer) : List String := layer.file.globals.getD []

end ConfigLayer

namespace AnalysisConfig

variable {home : Option String} {config : AnalysisConfig} {layer : ConfigLayer}
  {layers : List ConfigLayer}

/-- The configuration with layers laid over it, one after another. -/
def applyLayers (home : Option String) (config : AnalysisConfig) (layers : List ConfigLayer) :
    AnalysisConfig :=
  layers.foldl (fun config layer => config.apply home layer.file layer.directory) config

theorem applyLayers_concat (home : Option String) (config : AnalysisConfig)
    (layers : List ConfigLayer) (layer : ConfigLayer) :
    config.applyLayers home (layers ++ [layer]) =
      (config.applyLayers home layers).apply home layer.file layer.directory :=
  List.foldl_concat ..

/-- What the last layer that sets something sets it to. -/
def lastSet? {α : Type} (set? : ConfigLayer → Option α) (layers : List ConfigLayer) : Option α :=
  layers.reverse.findSome? set?

/-- The configuration is that of `defaults` and of layers over it, of which the nearest one that
sets something wins. -/
structure NearestWins (home : Option String) (defaults : AnalysisConfig) (layers : List ConfigLayer)
    (config : AnalysisConfig) : Prop where
  mode : config.mode = (lastSet? (·.file.mode) layers).getD defaults.mode
  lintErrors : config.lintErrors = (lastSet? (·.file.lintErrors) layers).getD defaults.lintErrors
  typeErrors : config.typeErrors = (lastSet? (·.file.typeErrors) layers).getD defaults.typeErrors
  lint : ∀ name, config.lint.find? name =
    (lastSet? (·.lint? name) layers <|> defaults.lint.find? name)
  /-- A lint is on as it is set, else as `*` is set, else it is on. -/
  isLintOn : ∀ name, config.isLintOn name =
    ((lastSet? (·.lint? name) layers <|> defaults.lint.find? name) <|>
      (lastSet? (·.lint? "*") layers <|> defaults.lint.find? "*")).getD true
  /-- What the target of an alias leads to is taken under the directory of the file that sets the
  alias. -/
  aliases : ∀ name directory target,
    lastSet? (·.placed? name) layers = some (directory, target) →
      ∃ expanded, Path.Expands home target expanded ∧
        config.aliases.find? name = some (directory.join expanded).normalize
  unset : ∀ name, lastSet? (·.placed? name) layers = none →
    config.aliases.find? name = defaults.aliases.find? name
  globals : config.globals = (defaults.globals ++ layers.flatMap (·.globals)).eraseDups

/-! ## One layer -/

theorem find?_lint_apply (h : layer.file.IsSorted) (name : String) :
    (config.apply home layer.file layer.directory).lint.find? name =
      (layer.lint? name <|> config.lint.find? name) := by
  rw [apply, ConfigLayer.lint?]
  cases hlint : layer.file.lint with
  | none => rfl
  | some lint => exact Dictionary.find?_insertAll (h.lint lint hlint) config.lint name

theorem find?_aliases_apply (h : layer.file.IsSorted) (name : String) :
    (config.apply home layer.file layer.directory).aliases.find? name =
      (layer.alias? home name <|> config.aliases.find? name) := by
  rw [apply, ConfigLayer.alias?, ConfigLayer.target?]
  cases haliases : layer.file.aliases with
  | none => rfl
  | some aliases =>
      have hsorted := Dictionary.isSorted_map (h.aliases aliases haliases)
        (aliasTarget home layer.directory)
      have hfind := Dictionary.find?_insertAll hsorted config.aliases name
      rwa [Dictionary.find?_map] at hfind

/-! ## Globals -/

theorem nodup_addGlobal {globals : List String} (h : globals.Nodup) (name : String) :
    (addGlobal globals name).Nodup := by
  rw [addGlobal]
  split
  · exact h
  · next hname => exact List.nodup_append.mpr ⟨h, List.nodup_singleton name, by
      rintro other hother found hfound rfl
      exact hname (List.mem_singleton.mp hfound ▸ hother)⟩

theorem eraseDups_of_nodup {names : List String} (h : names.Nodup) : names.eraseDups = names := by
  induction names with
  | nil => rfl
  | cons name names ih =>
      obtain ⟨hname, hnames⟩ := List.nodup_cons.mp h
      have hfilter : names.filter (fun other => !other == name) = names := by
        refine List.filter_eq_self.mpr fun other hother => ?_
        have hne : other ≠ name := ne_of_mem_of_not_mem hother hname
        simpa using hne
      rw [List.eraseDups_cons, hfilter, ih hnames]

/-- Adding names one by one keeps the first occurrence of each. -/
theorem foldl_addGlobal {globals : List String} (h : globals.Nodup) (names : List String) :
    names.foldl addGlobal globals = (globals ++ names).eraseDups := by
  induction names generalizing globals with
  | nil => rw [List.foldl_nil, List.append_nil, eraseDups_of_nodup h]
  | cons name names ih =>
      rw [List.foldl_cons, ih (nodup_addGlobal h name), addGlobal]
      split
      · next hmem =>
          rw [List.eraseDups_append, List.eraseDups_append]
          simp [List.removeAll, hmem]
      · rw [List.append_assoc]
        rfl

theorem foldl_addGlobal_of_subset {globals names : List String}
    (h : ∀ name ∈ names, name ∈ globals) : names.foldl addGlobal globals = globals := by
  induction names with
  | nil => rfl
  | cons name names ih =>
      rw [List.foldl_cons, addGlobal, if_pos (h name List.mem_cons_self)]
      exact ih fun other hother => h other (List.mem_cons_of_mem name hother)

theorem mem_foldl_addGlobal {globals names : List String} {name : String}
    (h : name ∈ globals ∨ name ∈ names) : name ∈ names.foldl addGlobal globals := by
  induction names generalizing globals with
  | nil => exact h.resolve_right (List.not_mem_nil)
  | cons first names ih =>
      rw [List.foldl_cons]
      apply ih
      rw [addGlobal]
      split
      · next hfirst =>
          rcases h with h | h
          · exact .inl h
          · rcases List.mem_cons.mp h with rfl | h
            · exact .inl hfirst
            · exact .inr h
      · rcases h with h | h
        · exact .inl (List.mem_append_left _ h)
        · rcases List.mem_cons.mp h with rfl | h
          · exact .inl (by simp)
          · exact .inr h

/-! ## All layers -/

theorem lastSet?_concat {α : Type} (set? : ConfigLayer → Option α) (layers : List ConfigLayer)
    (layer : ConfigLayer) :
    lastSet? set? (layers ++ [layer]) = (set? layer <|> lastSet? set? layers) := by
  rw [lastSet?, List.reverse_append, List.reverse_singleton, List.singleton_append,
    List.findSome?_cons]
  cases set? layer with
  | some value => rfl
  | none => rfl

theorem lastSet?_map {α β : Type} (f : α → β) (set? : ConfigLayer → Option α)
    (layers : List ConfigLayer) :
    lastSet? (fun layer => (set? layer).map f) layers = (lastSet? set? layers).map f :=
  List.map_findSome?.symm

/-- What every layer either sets or leaves is as the last layer sets it. -/
theorem get_applyLayers {α : Type} (get : AnalysisConfig → Option α)
    (set? : ConfigLayer → Option α)
    (h : ∀ (config : AnalysisConfig), ∀ layer ∈ layers,
      get (config.apply home layer.file layer.directory) = (set? layer <|> get config))
    (config : AnalysisConfig) :
    get (config.applyLayers home layers) = (lastSet? set? layers <|> get config) := by
  induction layers using List.reverseRecOn with
  | nil => rfl
  | append_singleton layers layer ih =>
      have hlayers := ih fun config other hother =>
        h config other (List.mem_append_left [layer] hother)
      rw [applyLayers_concat, h _ layer (by simp), hlayers, lastSet?_concat]
      cases set? layer with
      | some value => rfl
      | none => rfl

/-- A setting that every layer either replaces or keeps is as the last layer sets it. -/
theorem getD_applyLayers {α : Type} (get : AnalysisConfig → α) (set? : ConfigLayer → Option α)
    (h : ∀ (config : AnalysisConfig) (layer : ConfigLayer),
      get (config.apply home layer.file layer.directory) = (set? layer).getD (get config))
    (config : AnalysisConfig) (layers : List ConfigLayer) :
    get (config.applyLayers home layers) = (lastSet? set? layers).getD (get config) := by
  have hstep : ∀ (config : AnalysisConfig), ∀ layer ∈ layers,
      some (get (config.apply home layer.file layer.directory)) =
        (set? layer <|> some (get config)) := by
    intro config layer _
    rw [h]
    cases set? layer with
    | some value => rfl
    | none => rfl
  have hlast := get_applyLayers (some ∘ get) set? hstep config
  cases hset : lastSet? set? layers with
  | some value =>
      rw [hset] at hlast
      exact Option.some.inj hlast
  | none =>
      rw [hset] at hlast
      exact Option.some.inj hlast

theorem globals_applyLayers (home : Option String) (config : AnalysisConfig)
    (layers : List ConfigLayer) :
    (config.applyLayers home layers).globals =
      (layers.flatMap (·.globals)).foldl addGlobal config.globals := by
  induction layers generalizing config with
  | nil => rfl
  | cons layer layers ih =>
      rw [List.flatMap_cons, List.foldl_append]
      exact ih _

/-- Laying files over defaults without repeated globals lets the nearest file win. -/
theorem nearestWins_applyLayers (home : Option String) {defaults : AnalysisConfig}
    (hdefaults : defaults.globals.Nodup) (h : ∀ layer ∈ layers, layer.file.IsSorted) :
    NearestWins home defaults layers (defaults.applyLayers home layers) := by
  have hlint : ∀ name, (defaults.applyLayers home layers).lint.find? name =
      (lastSet? (·.lint? name) layers <|> defaults.lint.find? name) := fun name =>
    get_applyLayers (·.lint.find? name) (·.lint? name)
      (fun config layer hlayer => find?_lint_apply (h layer hlayer) name) defaults
  have halias : ∀ name, (defaults.applyLayers home layers).aliases.find? name =
      ((lastSet? (·.placed? name) layers).map (fun (directory, target) =>
        aliasTarget home directory target) <|> defaults.aliases.find? name) := fun name => by
    rw [← lastSet?_map, get_applyLayers (·.aliases.find? name) (·.alias? home name)
      (fun config layer hlayer => find?_aliases_apply (h layer hlayer) name) defaults]
    simp only [ConfigLayer.alias?, ConfigLayer.placed?, Option.map_map]
    rfl
  refine ⟨?_, ?_, ?_, hlint, ?_, ?_, ?_, ?_⟩
  · exact getD_applyLayers (·.mode) (·.file.mode) (fun _ _ => rfl) defaults layers
  · exact getD_applyLayers (·.lintErrors) (·.file.lintErrors) (fun _ _ => rfl) defaults layers
  · exact getD_applyLayers (·.typeErrors) (·.file.typeErrors) (fun _ _ => rfl) defaults layers
  · intro name
    rw [isLintOn, hlint, hlint]
    rfl
  · intro name directory target hset
    obtain ⟨expanded, hexpanded⟩ := Path.exists_expands home target
    refine ⟨expanded, hexpanded, ?_⟩
    rw [halias, hset, ← hexpanded.ofTarget_eq]
    rfl
  · intro name hunset
    rw [halias, hunset]
    rfl
  · rw [globals_applyLayers, foldl_addGlobal hdefaults]

/-- The last layer that sets something stands before layers that leave it. -/
theorem lastSet?_eq_some_iff {α : Type} {set? : ConfigLayer → Option α} {value : α} :
    lastSet? set? layers = some value ↔ ∃ farther layer nearer,
      layers = farther ++ layer :: nearer ∧ set? layer = some value ∧
        ∀ other ∈ nearer, set? other = none := by
  rw [lastSet?, List.findSome?_eq_some_iff]
  constructor
  · rintro ⟨nearer, layer, farther, hlayers, hset, hnone⟩
    refine ⟨farther.reverse, layer, nearer.reverse, ?_, hset, fun other hother =>
      hnone other (List.mem_reverse.mp hother)⟩
    rw [← List.reverse_reverse layers, hlayers]
    simp
  · rintro ⟨farther, layer, nearer, rfl, hset, hnone⟩
    exact ⟨nearer.reverse, layer, farther.reverse, by simp, hset, fun other hother =>
      hnone other (List.mem_reverse.mp hother)⟩

theorem lastSet?_eq_none_iff {α : Type} {set? : ConfigLayer → Option α} :
    lastSet? set? layers = none ↔ ∀ layer ∈ layers, set? layer = none := by
  rw [lastSet?, List.findSome?_eq_none_iff]
  exact forall_congr' fun layer => by rw [List.mem_reverse]

/-! ## Aliases as a require spells them -/

theorem isSorted_aliases_applyLayers (home : Option String) (h : config.aliases.IsSorted)
    (layers : List ConfigLayer) : (config.applyLayers home layers).aliases.IsSorted := by
  induction layers using List.reverseRecOn with
  | nil => exact h
  | append_singleton layers layer ih =>
      rw [applyLayers_concat]
      exact Dictionary.isSorted_insertAll ih _

theorem requireAliases_eq (config : AnalysisConfig) :
    config.requireAliases = (config.aliases.map fun (name, target) =>
      (name, target.toString)).map fun (name, target) => ("@" ++ name, target) := by
  rw [requireAliases, List.map_map]
  rfl

theorem isSorted_requireAliases (h : config.aliases.IsSorted) : config.requireAliases.IsSorted := by
  rw [requireAliases_eq]
  exact Dictionary.isSorted_mark (Dictionary.isSorted_map h _) "@"

theorem find?_requireAliases_eq_some_iff {token text : String} :
    config.requireAliases.find? token = some text ↔
      ∃ name target, token = "@" ++ name ∧ config.aliases.find? name = some target ∧
        target.toString = text := by
  rw [requireAliases_eq, Dictionary.find?_mark_eq_some_iff]
  refine exists_congr fun name => ?_
  rw [Dictionary.find?_map, Option.map_eq_some_iff, exists_and_left]

/-! ## Laying a file over twice -/

/-- The lints and the aliases of a configuration are sorted. -/
structure IsSorted (config : AnalysisConfig) : Prop where
  lint : config.lint.IsSorted
  aliases : config.aliases.IsSorted

/-- A file that is laid over a second time changes nothing. -/
theorem apply_apply (home : Option String) (directory : Path) {file : ConfigFile}
    (hconfig : config.IsSorted) (hfile : file.IsSorted) :
    (config.apply home file directory).apply home file directory =
      config.apply home file directory := by
  have hgetD : ∀ {α : Type} (field : Option α) (value : α),
      field.getD (field.getD value) = field.getD value := by
    intro α field value
    cases field with
    | some new => rfl
    | none => rfl
  have hlint : Dictionary.IsSorted (file.lint.getD []) := by
    cases hfound : file.lint with
    | none => exact Dictionary.isSorted_nil
    | some lint => exact hfile.lint lint hfound
  have haliases : Dictionary.IsSorted (file.aliases.getD []) := by
    cases hfound : file.aliases with
    | none => exact Dictionary.isSorted_nil
    | some aliases => exact hfile.aliases aliases hfound
  simp only [apply, hgetD]
  rw [Dictionary.insertAll_insertAll hconfig.lint hlint,
    Dictionary.insertAll_insertAll hconfig.aliases (Dictionary.isSorted_map haliases _),
    foldl_addGlobal_of_subset fun name hname => mem_foldl_addGlobal (.inr hname)]

end AnalysisConfig

end LuauWorkspace
