import LuauWorkspace.Proofs.Resolver.Invalidation
import LuauWorkspace.Proofs.Resolver.Soundness
import Mathlib.Data.List.Find

/-! # What answers depend on

A resolver asks for canonical paths only. Two disks with the same files at canonical paths, once the
open documents lie over them, differ for it at most in their directories, and those matter only
where the file of the asking module and the path of the require are looked at. -/

namespace LuauWorkspace

namespace FileSystem

/-- Directories do not matter at a path that is a file, or that holds no `init` file. -/
theorem moduleFile?_congr {files others : FileSystem} {path : Path} (hpath : path.IsCanonical)
    (hisFile : ∀ file : Path, file.IsCanonical → others.isFile file = files.isFile file)
    (hdirectory : others.isDirectory path = files.isDirectory path ∨ files.isFile path = true ∨
      ∀ file ∈ initFiles path, files.isFile file = false) :
    others.moduleFile? path = files.moduleFile? path := by
  have hinside : (initFiles path).find? others.isFile = (initFiles path).find? files.isFile :=
    List.find?_congr fun file hmem => hisFile file (isCanonical_of_mem_initFiles hpath hmem)
  have hbeside : (extendedFiles path).find? others.isFile =
      (extendedFiles path).find? files.isFile :=
    List.find?_congr fun file hmem => hisFile file (isCanonical_of_mem_extendedFiles hpath hmem)
  rw [moduleFile?, moduleFile?, hisFile path hpath, hinside, hbeside]
  rcases hdirectory with hsame | hfile | hnone
  · rw [hsame]
  · rw [if_pos hfile, if_pos hfile]
  · have hfind : (initFiles path).find? files.isFile = none :=
      List.find?_eq_none.mpr fun file hmem => by simp [hnone file hmem]
    simp only [hfind, ite_self]

end FileSystem

namespace Resolver

/-- The files that a resolver can ask for are the same on two disks. -/
structure SameFiles (r : Resolver) (disk other : FileSystem) : Prop where
  isFile : ∀ path : Path, path.IsCanonical →
    (r.files other).isFile path = (r.files disk).isFile path
  read : ∀ path : Path, path.IsCanonical → (r.files other).read path = (r.files disk).read path

variable {r : Resolver} {disk other : FileSystem}

/-! ## Configurations -/

theorem SameFiles.layer_eq (h : r.SameFiles disk other) {directory : Path}
    (hdirectory : directory.IsCanonical) (inherited : AnalysisConfig) :
    r.layer other inherited directory = r.layer disk inherited directory := by
  have hfile := hdirectory.child isEntryName_configFileName
  have hconfig : r.configFile? other directory = r.configFile? disk directory :=
    configFile?_congr ⟨h.isFile _ hfile, h.read _ hfile⟩
  rw [layer, layer, hconfig]

theorem isCanonical_configParent? {directory parent : Path} (h : directory.IsCanonical)
    (hparent : r.configParent? directory = some parent) : parent.IsCanonical := by
  rw [configParent?, Option.ite_none_left_eq_some] at hparent
  exact h.parent hparent.2

theorem SameFiles.cascade_eq (h : r.SameFiles disk other) (configs : List (Path × AnalysisConfig))
    {directory : Path} (hdirectory : directory.IsCanonical) :
    r.cascade other configs directory = r.cascade disk configs directory := by
  induction hn : directory.segments.length using Nat.strongRecOn generalizing directory with
  | ind n ih =>
      cases hlookup : configs.lookup directory with
      | some config => rw [cascade_of_lookup hlookup, cascade_of_lookup hlookup]
      | none =>
          cases hparent : r.configParent? directory with
          | none =>
              rw [cascade_of_no_parent hlookup hparent, cascade_of_no_parent hlookup hparent,
                h.layer_eq hdirectory]
          | some parent =>
              have hsame := ih _ (hn ▸ length_configParent? hparent)
                (isCanonical_configParent? hdirectory hparent) rfl
              rw [cascade_of_parent hlookup hparent, cascade_of_parent hlookup hparent, hsame]
              simp only [h.layer_eq hdirectory]

/-! ## Requires -/

/-- Whether the file of the asking module is a directory is the same on two disks. -/
def SameContext (r : Resolver) (disk other : FileSystem) (context : Option String) : Prop :=
  ∀ path, context.bind r.contextPath? = some path →
    other.isDirectory path = disk.isDirectory path

theorem SameContext.startDirectory_eq {context : Option String}
    (h : r.SameContext disk other context) :
    r.startDirectory other context = r.startDirectory disk context := by
  rw [startDirectory, startDirectory]
  cases hpath : context.bind r.contextPath? with
  | none => rfl
  | some path =>
      have hsame : (r.files other).isDirectory path = (r.files disk).isDirectory path :=
        h path hpath
      simp only [hsame]

theorem SameContext.directoryOf?_eq {name : String} (h : r.SameContext disk other (some name)) :
    r.directoryOf? other name = r.directoryOf? disk name := by
  rw [directoryOf?, directoryOf?]
  cases hpath : r.contextPath? name with
  | none => rfl
  | some path =>
      have hsame : (r.files other).isDirectory path = (r.files disk).isDirectory path :=
        h path hpath
      simp only [Option.bind_eq_bind, Option.bind_some, hsame]

theorem isCanonical_directoryOf? (hwell : r.WellFormed) {name : String} {directory : Path}
    (h : r.directoryOf? disk name = some directory) : directory.IsCanonical := by
  obtain ⟨path, hpath, h⟩ := Option.bind_eq_some_iff.mp h
  have hcanonical := isCanonical_contextPath? hwell hpath
  split at h
  · exact Option.some.inj h ▸ hcanonical
  · exact hcanonical.parent h

variable (hwell : r.WellFormed) (h : r.SameFiles disk other) {context : Option String}
  (hcontext : r.SameContext disk other context)

include hwell h hcontext

theorem aliases_eq_of_sameFiles : r.aliases other context = r.aliases disk context := by
  cases context with
  | none => rfl
  | some name =>
      simp only [aliases, config, hcontext.directoryOf?_eq]
      cases hdirectory : r.directoryOf? disk name with
      | none => rfl
      | some directory =>
          simp only [configOfDirectory,
            h.cascade_eq r.configs (isCanonical_directoryOf? hwell hdirectory)]

theorem target_eq_of_sameFiles (require : String) :
    r.target other context require = r.target disk context require := by
  obtain ⟨configs, hkeeps⟩ := r.aliases_keeps disk context
  have hplain : plainTarget { r with configs } other context require =
      plainTarget { r with configs } disk context require := by
    have hstart : startDirectory { r with configs } other context =
        startDirectory { r with configs } disk context := hcontext.startDirectory_eq
    rw [plainTarget, plainTarget, hstart]
  rw [target, target, aliases_eq_of_sameFiles hwell h hcontext]
  simp only [hkeeps, hplain]

/-- Two disks with the same files resolve a require to the same module, unless it leads to a path
that is a directory on one of them and holds an `init` file. -/
theorem resolveString_eq_of_sameFiles {require : String}
    (htarget : ∀ path, (r.target disk context require).1 = .path path →
      other.isDirectory path = disk.isDirectory path ∨ (r.files disk).isFile path = true ∨
        ∀ file ∈ FileSystem.initFiles path, (r.files disk).isFile file = false) :
    r.resolveString other context require = r.resolveString disk context require := by
  obtain ⟨configs, hkeeps⟩ := r.target_keeps disk context require
  have hsound := soundTarget_target hwell disk context require
  rw [resolveString, resolveString, target_eq_of_sameFiles hwell h hcontext require]
  simp only [hkeeps]
  generalize (r.target disk context require).1 = target at hsound htarget
  cases target with
  | path path =>
      have hfile : (r.files other).moduleFile? path = (r.files disk).moduleFile? path :=
        FileSystem.moduleFile?_congr hsound h.isFile (htarget path rfl)
      have hmodule : moduleAt? { r with configs } other path =
          moduleAt? { r with configs } disk path := by
        rw [moduleAt?, moduleAt?]
        exact congrArg _ hfile
      rw [moduleOf?, moduleOf?, hmodule]
  | node name => rfl
  | nowhere => rfl

end Resolver

end LuauWorkspace
