import LuauWorkspace.FileSystem.Memory
import LuauWorkspace.Proofs.AnalysisConfig.Layers
import LuauWorkspace.Proofs.Resolver.Memory
import Mathlib.Data.List.Infix
import Mathlib.Data.List.TakeWhile

/-! # The nearest configuration file wins

The configuration of a directory is that of the files on the way down to it, laid over the defaults
in this order. The way begins at the root of the workspace, or at the top outside of it. -/

namespace LuauWorkspace

namespace Path

/-- A path and all paths above it, the topmost first. -/
def lineage (p : Path) : List Path := p.segments.inits.map (Path.mk p.absolute)

theorem lineage_of_parent? {p parent : Path} (h : p.parent? = some parent) :
    p.lineage = parent.lineage ++ [p] := by
  have hconcat : ∀ (front : List Segment) (last : Segment),
      (front ++ [last]).inits = front.inits ++ [front ++ [last]] := by
    intro front last
    rw [List.inits_append]
    rfl
  rw [parent?, Option.ite_none_left_eq_some] at h
  obtain ⟨hne, hparent⟩ := h
  obtain rfl := Option.some.inj hparent
  have hinits := hconcat p.segments.dropLast (p.segments.getLast hne)
  rw [List.dropLast_append_getLast] at hinits
  rw [lineage, hinits, List.map_append]
  rfl

theorem lineage_of_parent?_eq_none {p : Path} (h : p.parent? = none) : p.lineage = [p] := by
  obtain ⟨absolute, segments⟩ := p
  cases segments with
  | nil => rfl
  | cons segment segments => cases h

theorem length_of_mem_lineage {p q : Path} (h : q ∈ p.lineage) :
    q.segments.length ≤ p.segments.length := by
  obtain ⟨segments, hprefix, rfl⟩ := List.mem_map.mp h
  exact ((List.mem_inits _ _).mp hprefix).length_le

theorem mem_lineage_self (p : Path) : p ∈ p.lineage :=
  List.mem_map.mpr ⟨p.segments, (List.mem_inits _ _).mpr (List.prefix_refl _), rfl⟩

end Path

namespace Resolver

variable {r : Resolver} {disk : FileSystem} {directory : Path}

/-! ## The chain of directories -/

/-- The directories on the way down to a directory: from the root of the workspace when that is
on the way, else from the top. -/
def chain (r : Resolver) (directory : Path) : List Path :=
  if r.root ∈ directory.lineage then directory.lineage.dropWhile (· ≠ r.root)
  else directory.lineage

/-- The configuration files on the way down to a directory. -/
def configLayers (r : Resolver) (disk : FileSystem) (directory : Path) : List ConfigLayer :=
  (r.chain directory).filterMap fun place => (r.configFile? disk place).map (ConfigLayer.mk place)

theorem chain_of_parent {parent : Path} (h : r.configParent? directory = some parent) :
    r.chain directory = r.chain parent ++ [directory] := by
  rw [configParent?, Option.ite_none_left_eq_some] at h
  obtain ⟨hroot, hparent⟩ := h
  have hmem : r.root ∈ directory.lineage ↔ r.root ∈ parent.lineage := by
    rw [Path.lineage_of_parent? hparent, List.mem_append, List.mem_singleton, or_iff_left]
    exact Ne.symm hroot
  rw [chain, chain]
  by_cases habove : r.root ∈ parent.lineage
  · rw [if_pos (hmem.mpr habove), if_pos habove, Path.lineage_of_parent? hparent,
      List.dropWhile_append, if_neg]
    intro hempty
    have hall := List.dropWhile_eq_nil_iff.mp (List.isEmpty_iff.mp hempty) r.root habove
    simp at hall
  · rw [if_neg (mt hmem.mp habove), if_neg habove, Path.lineage_of_parent? hparent]

theorem chain_of_no_parent (h : r.configParent? directory = none) :
    r.chain directory = [directory] := by
  rw [configParent?] at h
  split at h
  · next hroot =>
      rw [chain, ← hroot, if_pos directory.mem_lineage_self]
      cases hparent : directory.parent? with
      | none =>
          rw [Path.lineage_of_parent?_eq_none hparent]
          simp
      | some parent =>
          have hlt := Path.parent?_length hparent
          rw [Path.lineage_of_parent? hparent, List.dropWhile_append_of_pos]
          · simp
          · intro place hplace
            have hle := Path.length_of_mem_lineage hplace
            have hne : place ≠ directory := by
              rintro rfl
              omega
            simpa using hne
  · next hroot =>
      have hlineage := Path.lineage_of_parent?_eq_none h
      rw [chain, hlineage, if_neg]
      rw [List.mem_singleton]
      exact Ne.symm hroot

/-! ## Layers -/

/-- A file counts when it is there, can be read and can be understood. -/
theorem configFile?_eq_some_iff {file : ConfigFile} :
    r.configFile? disk directory = some file ↔
      (r.files disk).isFile (directory.child AnalysisConfig.fileName) = true ∧
        ∃ text, (r.files disk).read (directory.child AnalysisConfig.fileName) = .ok text ∧
          ConfigFile.read text = .ok file := by
  rw [configFile?]
  split
  · next hthere =>
      cases hread : (r.files disk).read (directory.child AnalysisConfig.fileName) with
      | error cause => simp
      | ok text =>
          simp only [hthere, true_and, Except.ok.injEq, exists_eq_left']
          cases ConfigFile.read text with
          | error cause => simp [Except.toOption]
          | ok found => simp [Except.toOption]
  · next hmissing => simp [hmissing]

theorem isSorted_of_mem_configLayers {layer : ConfigLayer}
    (h : layer ∈ r.configLayers disk directory) : layer.file.IsSorted := by
  obtain ⟨place, -, hlayer⟩ := List.mem_filterMap.mp h
  obtain ⟨file, hfile, rfl⟩ := Option.map_eq_some_iff.mp hlayer
  obtain ⟨-, text, -, hread⟩ := configFile?_eq_some_iff.mp hfile
  exact ConfigFile.isSorted_of_read hread

/-- Working a configuration out lays the files on the way over the defaults. -/
theorem configAt_eq_applyLayers (r : Resolver) (disk : FileSystem) (directory : Path) :
    r.configAt disk directory =
      r.defaults.applyLayers r.home (r.configLayers disk directory) := by
  have hlayer : ∀ (before : List Path) (inherited : AnalysisConfig) (place : Path),
      inherited = r.defaults.applyLayers r.home (before.filterMap fun place =>
        (r.configFile? disk place).map (ConfigLayer.mk place)) →
      r.layer disk inherited place = r.defaults.applyLayers r.home
        ((before ++ [place]).filterMap fun place =>
          (r.configFile? disk place).map (ConfigLayer.mk place)) := by
    intro before inherited place hinherited
    rw [List.filterMap_append, layer]
    cases hfile : r.configFile? disk place with
    | none => simp [hfile, hinherited]
    | some file =>
        rw [List.filterMap_cons_some (by rw [hfile]; rfl), List.filterMap_nil,
          AnalysisConfig.applyLayers_concat, ← hinherited]
  induction hn : directory.segments.length using Nat.strongRecOn generalizing directory with
  | ind n ih =>
      rw [configLayers]
      cases h : r.configParent? directory with
      | some parent =>
          rw [configAt_of_parent h, chain_of_parent h]
          exact hlayer _ _ _ (ih _ (hn ▸ length_configParent? h) parent rfl)
      | none =>
          rw [configAt_of_no_parent h, chain_of_no_parent h]
          exact hlayer [] _ _ rfl

/-- On coherent memory the nearest file that sets something wins, and a file that is laid over a
second time changes nothing. -/
theorem nearestWins_configOfDirectory (hcoherent : Coherent r disk r.configs)
    (hdefaults : r.defaults.globals.Nodup) (directory : Path) :
    AnalysisConfig.NearestWins r.home r.defaults (r.configLayers disk directory)
        (r.configOfDirectory disk directory).1 ∧
      (∀ (place : Path) (file : ConfigFile), r.configFile? disk place = some file ↔
        (r.files disk).isFile (place.child AnalysisConfig.fileName) = true ∧
          ∃ text, (r.files disk).read (place.child AnalysisConfig.fileName) = .ok text ∧
            ConfigFile.read text = .ok file) ∧
      ∀ (config : AnalysisConfig) (place : Path) (file : ConfigFile), config.IsSorted →
        file.IsSorted → (config.apply r.home file place).apply r.home file place =
          config.apply r.home file place := by
  refine ⟨?_, fun place file => configFile?_eq_some_iff, fun config place file hconfig hfile =>
    AnalysisConfig.apply_apply r.home place hconfig hfile⟩
  have hconfig : (r.configOfDirectory disk directory).1 = r.configAt disk directory :=
    (cascade_spec hcoherent directory).1
  rw [hconfig, configAt_eq_applyLayers]
  exact AnalysisConfig.nearestWins_applyLayers r.home hdefaults fun layer hlayer =>
    isSorted_of_mem_configLayers hlayer

/-! ## A project with two configuration files -/

/-- A project whose root sets the mode and an alias below the home directory, and in which both
files declare globals. -/
def nestedFiles : MemoryFiles :=
  let above := "\x7b\"languageMode\": \"strict\", \"globals\": [\"a\"], " ++
    "\"aliases\": \x7b\"x\": \"~/lib\"\x7d\x7d"
  let below := "\x7b\"globals\": [\"b\", \"a\"]\x7d"
  (MemoryFiles.empty.insert (Path.ofString "/p/.luaurc") (some above)).insert
    (Path.ofString "/p/q/.luaurc") (some below)

/-- The files of the project. -/
def nestedLayers : List ConfigLayer :=
  [⟨Path.ofString "/p",
      { mode := some .strict
        globals := some ["a"]
        aliases := some [("x", "~/lib")] }⟩,
    ⟨Path.ofString "/p/q", { globals := some ["b", "a"] }⟩]

/-- A resolver that remembers the configuration of the root works out that of a directory. -/
theorem nearestWins_nestedFiles :
    let disk := nestedFiles.fileSystem
    let r := ((Resolver.create (some "/home/tester") (Path.ofString "/p") {}).configOfDirectory disk
      (Path.ofString "/p")).2
    let config := (r.configOfDirectory disk (Path.ofString "/p/q")).1
    r.configs ≠ [] ∧ Coherent r disk r.configs ∧
      r.configLayers disk (Path.ofString "/p/q") = nestedLayers ∧
      config.mode = .strict ∧ config.globals = ["a", "b"] ∧
      config.aliases.find? "x" = some (Path.ofString "/home/tester/lib") ∧
      ∀ layer ∈ nestedLayers,
        (r.defaults.apply r.home layer.file layer.directory).apply r.home layer.file
          layer.directory = r.defaults.apply r.home layer.file layer.directory := by
  intro disk r config
  have hspec := cascade_spec
    (coherent_nil (Resolver.create (some "/home/tester") (Path.ofString "/p") {}) disk)
    (Path.ofString "/p")
  have hcoherent : Coherent r disk r.configs := coherent_putConfigs.mpr hspec.2
  have hconfigs : r.configs ≠ [] := by
    decide +kernel
  have hlayers : r.configLayers disk (Path.ofString "/p/q") = nestedLayers := by
    decide +kernel
  obtain ⟨hwins, -, htwice⟩ :=
    nearestWins_configOfDirectory hcoherent (by decide) (Path.ofString "/p/q")
  rw [hlayers] at hwins
  refine ⟨hconfigs, hcoherent, hlayers, hwins.mode, ?_, ?_, fun layer hlayer => ?_⟩
  · rw [hwins.globals]
    decide
  · have hset : AnalysisConfig.lastSet? (·.placed? "x") nestedLayers =
        some (Path.ofString "/p", "~/lib") := by decide
    obtain ⟨expanded, hexpanded, hfind⟩ := hwins.aliases "x" _ _ hset
    rw [hfind, Path.expands_iff.mp hexpanded]
    decide
  · rw [← hlayers] at hlayer
    exact htwice r.defaults layer.directory layer.file
      ⟨Dictionary.isSorted_nil, Dictionary.isSorted_nil⟩ (isSorted_of_mem_configLayers hlayer)

end Resolver

end LuauWorkspace
