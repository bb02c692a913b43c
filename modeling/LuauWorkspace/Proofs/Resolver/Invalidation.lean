import LuauWorkspace.Proofs.Resolver.Memory
import LuauWorkspace.Proofs.Resolver.Step

/-! # Forgetting in time

Whatever may change a configuration makes the resolver forget all of them. Only a change of a
configuration file on the disk goes unnoticed until the resolver is told. -/

namespace LuauWorkspace

namespace Resolver

open Session

/-! ## Uris of configuration files -/

theorem isEntryName_configFileName : IsEntryName AnalysisConfig.fileName := by decide

/-- A uri that shares its key with the uri of a configuration file is recognised as one, however it
is spelled. -/
theorem isConfigUri_of_key_eq {uri fileUri : Uri} {directory : Path} (huri : uri.WellFormed)
    (hfile : Uri.ofPath? (directory.child AnalysisConfig.fileName) = some fileUri)
    (h : uri.key = fileUri.key) : isConfigUri uri = true := by
  have hne : (directory.child AnalysisConfig.fileName).segments ≠ [] := by simp [Path.child]
  have hspelled : Path.spelled (directory.child AnalysisConfig.fileName).segments =
      Path.spelled directory.segments ++ '/' :: AnalysisConfig.fileName.toList := by
    rw [Path.child, Path.spelled_append, Path.spelled_name]
  have hlast : Uri.encodedPath [.name AnalysisConfig.fileName] = "/.luaur".toList ++ ['c'] := rfl
  have htext : fileUri.toString.toList =
      ("file://".toList ++ Uri.encodedPath directory.segments ++ "/.luaur".toList) ++ ['c'] := by
    rw [Uri.ofPath?_eq_some hfile hne, List.append_assoc, List.append_assoc, ← hlast,
      ← Uri.encodedPath_append]
    simp [Uri.toString, Uri.beforePath, Uri.afterPath, Path.child]
  obtain ⟨n, hn⟩ := Uri.filePath?_of_key_eq huri hfile hne
    (Uri.key_eq_toString htext (by decide)) h
  have hname : (Path.ofString (String.ofList (Path.spelled
      (directory.child AnalysisConfig.fileName).segments ++ List.replicate n '/'))).fileName? =
        some AnalysisConfig.fileName := by
    apply Path.fileName?_ofString isEntryName_configFileName
    rw [String.toList_ofList, hspelled, List.append_assoc, List.cons_append]
  rw [isConfigUri, hn, Option.bind_some, hname, beq_self_eq_true]

/-! ## What leaves configuration files alone -/

theorem configFile?_congr {r s : Resolver} {disk other : FileSystem} {directory : Path}
    (h : (s.files other).isFile (directory.child AnalysisConfig.fileName) =
        (r.files disk).isFile (directory.child AnalysisConfig.fileName) ∧
      (s.files other).read (directory.child AnalysisConfig.fileName) =
        (r.files disk).read (directory.child AnalysisConfig.fileName)) :
    s.configFile? other directory = r.configFile? disk directory := by
  rw [configFile?, configFile?, h.1, h.2]

/-- Events on a document that is no configuration file change no configuration file. -/
theorem configFile?_putDocuments {r : Resolver} {uri : Uri} {documents : DocumentTable}
    (huri : uri.WellFormed) (hconfig : isConfigUri uri = false)
    (hfind : ∀ key, key ≠ uri.key → documents.find? key = r.documents.find? key)
    (disk : FileSystem) (directory : Path) :
    configFile? { r with documents } disk directory = r.configFile? disk directory := by
  have hdocument : FileSystem.document? documents (directory.child AnalysisConfig.fileName) =
      FileSystem.document? r.documents (directory.child AnalysisConfig.fileName) := by
    apply document?_of_others hfind
    -- Another spelling of the same key would be recognised as well.
    intro fileUri hfile heq
    rw [isConfigUri_of_key_eq huri hfile heq.symm] at hconfig
    exact Bool.noConfusion hconfig
  exact configFile?_congr (files_congr hdocument rfl rfl)

theorem coherent_putDocuments {r : Resolver} {disk : FileSystem} {uri : Uri}
    {documents : DocumentTable} (h : Coherent r disk r.configs) (huri : uri.WellFormed)
    (hfind : ∀ key, key ≠ uri.key → documents.find? key = r.documents.find? key) :
    Coherent (r.putDocuments uri documents) disk (r.putDocuments uri documents).configs := by
  rw [putDocuments]
  cases hconfig : isConfigUri uri with
  | true => exact coherent_nil _ disk
  | false =>
      refine h.congr fun directory => ?_
      apply configAt_congr
      · rfl
      · rfl
      · rfl
      · exact configFile?_putDocuments huri hconfig hfind disk

/-- A change of the disk that concerns no configuration file keeps the memory coherent. -/
theorem coherent_diskChange {r : Resolver} {before after : FileSystem} {path : Path}
    (h : Coherent r before r.configs) (hchange : before.ChangesAt after path)
    (hpath : path.fileName? ≠ some AnalysisConfig.fileName) : Coherent r after r.configs := by
  have hfile : ∀ directory, r.configFile? after directory = r.configFile? before directory := by
    intro directory
    have hother : directory.child AnalysisConfig.fileName ≠ path := by
      rintro rfl
      exact hpath (by simp [Path.child, Path.fileName?])
    obtain ⟨hisFile, hread⟩ := hchange _ hother
    exact configFile?_congr (files_congr rfl hisFile hread)
  exact h.congr fun directory => configAt_congr rfl rfl rfl hfile directory

/-! ## Operations -/

/-- Every operation keeps the memory coherent. -/
theorem Outcome.coherent {r after : Resolver} {disk : FileSystem} {operation : Operation}
    (houtcome : r.Outcome disk operation after) (h : Coherent r disk r.configs)
    (hvalid : ∀ uri, operation.uri? = some uri → uri.IsValid) :
    Coherent after disk after.configs := by
  cases houtcome with
  | unchanged => exact h
  | documents huri hothers => exact coherent_putDocuments h (hvalid _ huri).wellFormed hothers
  | forgotten _ => exact coherent_nil _ disk
  | plugin =>
      refine h.congr fun directory => ?_
      apply configAt_congr
      · rfl
      · rfl
      · rfl
      · intro place
        rfl
  | @asked query =>
      obtain ⟨configs, hcoherent, hafter⟩ := ask_coherent h query
      rw [hafter]
      exact coherent_putConfigs.mpr hcoherent

/-! ## Runs -/

/-- In a settled session everything that is remembered is up to date. -/
theorem coherent_of_settled {home : Option String} {root : Path} {defaults : AnalysisConfig}
    {settings : Settings} {disk : FileSystem} {s : Session}
    (h : Settled (Session.new home root defaults settings disk) s) :
    Coherent s.resolver s.disk s.resolver.configs := by
  induction h with
  | start => exact coherent_nil _ disk
  | forgotten _ _ hnone =>
      rw [hnone]
      exact coherent_nil _ _
  | step _ hs hevent ih =>
      cases hs with
      | operation operation huri => exact (outcome_run _ _ operation).coherent ih huri
      | diskChange hchange => exact coherent_diskChange ih hchange hevent

end Resolver

end LuauWorkspace
