import LuauWorkspace.Proofs.Resolver.Questions

/-! # Remembered configurations

What a resolver remembers is what it would work out again, so nobody can tell that it remembers. -/

namespace LuauWorkspace.Resolver

/-! ## Working a configuration out -/

/-- The configuration of a directory, worked out from the files alone. -/
def configAt (r : Resolver) (disk : FileSystem) (directory : Path) : AnalysisConfig :=
  match _h : r.configParent? directory with
  | some parent => r.layer disk (configAt r disk parent) directory
  | none => r.layer disk r.defaults directory
termination_by directory.segments.length
decreasing_by
  simp only [configParent?, Option.ite_none_left_eq_some] at _h
  exact Path.parent?_length _h.2

theorem configAt_of_parent {r : Resolver} {disk : FileSystem} {directory parent : Path}
    (h : r.configParent? directory = some parent) :
    r.configAt disk directory = r.layer disk (r.configAt disk parent) directory := by
  rw [configAt]
  split
  · next found hfound =>
      obtain rfl := Option.some.inj (h.symm.trans hfound)
      rfl
  · next hnone => simp [h] at hnone

theorem configAt_of_no_parent {r : Resolver} {disk : FileSystem} {directory : Path}
    (h : r.configParent? directory = none) :
    r.configAt disk directory = r.layer disk r.defaults directory := by
  rw [configAt]
  split
  · next found hfound => simp [h] at hfound
  · rfl

theorem length_configParent? {r : Resolver} {directory parent : Path}
    (h : r.configParent? directory = some parent) :
    parent.segments.length < directory.segments.length := by
  rw [configParent?, Option.ite_none_left_eq_some] at h
  exact Path.parent?_length h.2

/-- A configuration depends on nothing but the home directory, the root, the defaults and the
configuration files. -/
theorem configAt_congr {r r' : Resolver} {disk disk' : FileSystem} (hhome : r'.home = r.home)
    (hroot : r'.root = r.root) (hdefaults : r'.defaults = r.defaults)
    (hfile : ∀ directory, r'.configFile? disk' directory = r.configFile? disk directory)
    (directory : Path) : r'.configAt disk' directory = r.configAt disk directory := by
  have hlayer : ∀ inherited place,
      r'.layer disk' inherited place = r.layer disk inherited place := by
    intro inherited place
    rw [layer, layer, hfile, hhome]
  have hparent : ∀ place, r'.configParent? place = r.configParent? place := by
    intro place
    rw [configParent?, configParent?, hroot]
  induction hn : directory.segments.length using Nat.strongRecOn generalizing directory with
  | ind n ih =>
      cases h : r.configParent? directory with
      | some parent =>
          have hlt := length_configParent? h
          rw [configAt_of_parent h, configAt_of_parent ((hparent directory).trans h),
            ih _ (hn ▸ hlt) parent rfl, hlayer]
      | none =>
          rw [configAt_of_no_parent h, configAt_of_no_parent ((hparent directory).trans h),
            hdefaults, hlayer]

/-! ## Coherent memory -/

/-- Every remembered configuration is what would be worked out again. -/
def Coherent (r : Resolver) (disk : FileSystem) (configs : List (Path × AnalysisConfig)) : Prop :=
  ∀ directory config, (directory, config) ∈ configs → config = r.configAt disk directory

theorem coherent_nil (r : Resolver) (disk : FileSystem) : Coherent r disk [] := by
  intro directory config h
  cases h

theorem Coherent.congr {r s : Resolver} {disk other : FileSystem}
    {configs : List (Path × AnalysisConfig)} (h : Coherent r disk configs)
    (hsame : ∀ directory, s.configAt other directory = r.configAt disk directory) :
    Coherent s other configs := by
  intro directory config hmem
  rw [hsame directory]
  exact h directory config hmem

theorem Coherent.cons {r : Resolver} {disk : FileSystem} {configs : List (Path × AnalysisConfig)}
    (h : Coherent r disk configs) (directory : Path) :
    Coherent r disk ((directory, r.configAt disk directory) :: configs) := by
  intro other config hmem
  rcases List.mem_cons.mp hmem with heq | hmem
  · obtain ⟨rfl, rfl⟩ := Prod.mk.inj heq
    rfl
  · exact h other config hmem

theorem mem_of_lookup_eq_some {configs : List (Path × AnalysisConfig)} {directory : Path}
    {config : AnalysisConfig} (h : configs.lookup directory = some config) :
    (directory, config) ∈ configs := by
  obtain ⟨front, back, rfl, _⟩ := List.lookup_eq_some_iff.mp h
  exact List.mem_append_right _ List.mem_cons_self

/-! ## The cascade -/

theorem cascade_of_parent {r : Resolver} {disk : FileSystem}
    {configs : List (Path × AnalysisConfig)} {directory parent : Path}
    (hlookup : configs.lookup directory = none) (h : r.configParent? directory = some parent) :
    r.cascade disk configs directory =
      let (inherited, configs) := r.cascade disk configs parent
      let config := r.layer disk inherited directory
      (config, (directory, config) :: configs) := by
  rw [cascade]
  simp only [hlookup]
  split
  · next found hfound =>
      obtain rfl := Option.some.inj (h.symm.trans hfound)
      rfl
  · next hnone => simp [h] at hnone

theorem cascade_of_no_parent {r : Resolver} {disk : FileSystem}
    {configs : List (Path × AnalysisConfig)} {directory : Path}
    (hlookup : configs.lookup directory = none) (h : r.configParent? directory = none) :
    r.cascade disk configs directory =
      let config := r.layer disk r.defaults directory
      (config, (directory, config) :: configs) := by
  rw [cascade]
  simp only [hlookup]
  split
  · next found hfound => simp [h] at hfound
  · rfl

theorem cascade_of_lookup {r : Resolver} {disk : FileSystem}
    {configs : List (Path × AnalysisConfig)} {directory : Path} {config : AnalysisConfig}
    (h : configs.lookup directory = some config) :
    r.cascade disk configs directory = (config, configs) := by
  rw [cascade, h]

/-- On coherent memory the cascade answers what would be worked out again, and what it adds to the
memory is coherent. -/
theorem cascade_spec {r : Resolver} {disk : FileSystem} {configs : List (Path × AnalysisConfig)}
    (h : Coherent r disk configs) (directory : Path) :
    (r.cascade disk configs directory).1 = r.configAt disk directory ∧
      Coherent r disk (r.cascade disk configs directory).2 := by
  induction hn : directory.segments.length using Nat.strongRecOn generalizing directory with
  | ind n ih =>
      cases hlookup : configs.lookup directory with
      | some config =>
          rw [cascade_of_lookup hlookup]
          exact ⟨h directory config (mem_of_lookup_eq_some hlookup), h⟩
      | none =>
          cases hparent : r.configParent? directory with
          | some parent =>
              -- A hit further up the chain is used for all directories below it.
              obtain ⟨hconfig, hcoherent⟩ :=
                ih _ (hn ▸ length_configParent? hparent) parent rfl
              rw [cascade_of_parent hlookup hparent]
              simp only [hconfig, ← configAt_of_parent hparent]
              exact ⟨trivial, hcoherent.cons directory⟩
          | none =>
              rw [cascade_of_no_parent hlookup hparent]
              simp only [← configAt_of_no_parent hparent]
              exact ⟨trivial, h.cons directory⟩

theorem configAt_putConfigs (r : Resolver) (disk : FileSystem)
    (configs : List (Path × AnalysisConfig)) (directory : Path) :
    configAt { r with configs } disk directory = r.configAt disk directory := by
  apply configAt_congr
  · rfl
  · rfl
  · rfl
  · intro place
    rfl

theorem coherent_putConfigs {r : Resolver} {disk : FileSystem}
    {kept configs : List (Path × AnalysisConfig)} :
    Coherent { r with configs := kept } disk configs ↔ Coherent r disk configs := by
  simp only [Coherent, configAt_putConfigs]

/-! ## What is remembered afterwards -/

/-- `after` is `r` but for its memory, which is coherent. -/
def Remembers (r : Resolver) (disk : FileSystem) (after : Resolver) : Prop :=
  ∃ configs, Coherent r disk configs ∧ after = { r with configs }

section
variable {r : Resolver} {disk : FileSystem} (h : Coherent r disk r.configs)
include h

theorem remembers_self : Remembers r disk r := ⟨r.configs, h, rfl⟩

theorem config_coherent (name : String) : Remembers r disk (r.config disk name).2 := by
  rw [config]
  cases r.directoryOf? disk name with
  | some directory => exact ⟨_, (cascade_spec h directory).2, rfl⟩
  | none => exact remembers_self h

theorem aliases_coherent (context : Option String) :
    Remembers r disk (r.aliases disk context).2 := by
  cases context with
  | none => exact remembers_self h
  | some name => exact config_coherent h name

theorem resolve_coherent (context : Option String) (expr : RequireArgument) :
    Remembers r disk (r.resolve disk context expr).2 := by
  cases expr with
  | literal require =>
      have hafter : (r.resolve disk context (.literal require)).2 =
          (r.target disk context require).2 := rfl
      rw [hafter, target_snd]
      cases r.settings.require.fileAliases.find? require with
      | some target => exact remembers_self h
      | none => exact aliases_coherent h context
  | _ => exact remembers_self h

/-- Questions leave everything but coherent memory as it was. -/
theorem ask_coherent (query : Query) : Remembers r disk (query.ask r disk).2 := by
  cases query with
  | config name => exact config_coherent h name
  | directoryConfig directory => exact ⟨_, (cascade_spec h directory).2, rfl⟩
  | resolve context require => exact resolve_coherent h context require
  | _ => exact remembers_self h

end

section
variable {r : Resolver} {disk : FileSystem} (h : Coherent r disk r.configs)
include h

end

end LuauWorkspace.Resolver
