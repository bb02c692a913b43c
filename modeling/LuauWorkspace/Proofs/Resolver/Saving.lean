import LuauWorkspace.Proofs.FileSystem.Changes
import LuauWorkspace.Proofs.Resolver.Overlay
import LuauWorkspace.Proofs.Resolver.SameFiles

/-! # Saving an open document

An open document counts as a file before it is on the disk, so that writing it there changes no
answer about files. The directories above it are on the disk only after the write. -/

namespace LuauWorkspace

namespace Resolver

/-- The files of a resolver are the same after the file of an open document has changed on the
disk. -/
theorem sameFiles_of_changesOnly {r : Resolver} {before after : FileSystem} {path : Path}
    {uri : Uri} {document : Document} (huri : Uri.ofPath? path = some uri)
    (hopen : r.documents.get? uri = some document) (h : before.ChangesOnly after path) :
    r.SameFiles before after := by
  rw [DocumentTable.get?] at hopen
  have hfile : ∀ other : Path, other.IsCanonical →
      (r.files after).isFile other = (r.files before).isFile other ∧
        (r.files after).read other = (r.files before).read other := by
    intro other hother
    by_cases hpath : other = path
    · rw [hpath, isFile_files after huri, isFile_files before huri, read_files after huri,
        read_files before huri, hopen]
      exact ⟨rfl, rfl⟩
    · obtain ⟨hisFile, hread⟩ := h other hother hpath
      exact files_congr rfl hisFile hread
  exact ⟨fun other hother => (hfile other hother).1, fun other hother => (hfile other hother).2⟩

/-- In every session with an absolute root, writing an open document to the disk changes neither
where requires in a module start nor what they name, as long as no directory that the write makes
is the file of the module or has its `init` file loaded by the require. -/
theorem resolveString_of_writes {home : Option String} {root : String} {defaults : AnalysisConfig}
    {settings : Settings} {disk after : FileSystem} {s : Session}
    (hroot : (Path.ofString root).absolute = true)
    (h : Session.Reached (Session.new home (Path.ofString root) defaults settings disk) s)
    {path : Path} {uri : Uri} {document : Document} (huri : Uri.ofPath? path = some uri)
    (hopen : s.resolver.documents.get? uri = some document)
    (hwrites : s.disk.Writes after path document.content) {context : Option String}
    (hcontext : ∀ place, context.bind s.resolver.contextPath? = some place →
      ¬s.disk.Makes path place) :
    s.resolver.startDirectory after context = s.resolver.startDirectory s.disk context ∧
      ∀ require, (∀ target, (s.resolver.target s.disk context require).1 = .path target →
          s.disk.Makes path target →
            (s.resolver.files s.disk).isFile target = true ∨
              ∀ file ∈ FileSystem.initFiles target,
                (s.resolver.files s.disk).isFile file = false) →
        s.resolver.resolveString after context require =
          s.resolver.resolveString s.disk context require := by
  have hwell := wellFormed_of_reached h
    (wellFormed_new hroot (Path.isProper_ofString root) home defaults settings disk)
  have hsame := sameFiles_of_changesOnly huri hopen hwrites.others
  have hcontext' : s.resolver.SameContext s.disk after context := by
    intro place hplace
    obtain ⟨name, -, hname⟩ := Option.bind_eq_some_iff.mp hplace
    exact hwrites.isDirectory_eq (isCanonical_contextPath? hwell hname) (hcontext place hplace)
  refine ⟨hcontext'.startDirectory_eq, fun require htarget => ?_⟩
  apply resolveString_eq_of_sameFiles hwell hsame hcontext'
  intro target hleads
  have hsound := soundTarget_target hwell s.disk context require
  rw [hleads] at hsound
  by_cases hmakes : s.disk.Makes path target
  · exact .inr (htarget target hleads hmakes)
  · exact .inl (hwrites.isDirectory_eq hsound hmakes)

/-- A project with one file. -/
def mainFile : MemoryFiles := MemoryFiles.empty.insert (Path.ofString "/proj/main.luau") (some "")

/-- A document in a directory that is not there. -/
def draftDocument : Document :=
  ⟨⟨"file", some "", "/proj/lib/util.luau", none, none⟩, .luau, 1, "return 1"⟩

/-- The document is found from the file next to its directory, before and after it is written. -/
theorem resolveString_of_writes_draft :
    let start := Session.new none (Path.ofString "/proj") {} {} mainFile.fileSystem
    let r := start.resolver.didOpen draftDocument
    let path := Path.ofNames ["proj", "lib", "util.luau"]
    let after := (mainFile.insert path (some draftDocument.content)).fileSystem
    (Path.ofString "/proj").absolute = true ∧ Session.Reached start ⟨r, start.disk⟩ ∧
      Uri.ofPath? path = some draftDocument.uri ∧
      r.documents.get? draftDocument.uri = some draftDocument ∧
      start.disk.Writes after path draftDocument.content ∧
      (r.resolveString start.disk (some "/proj/main.luau") "./lib/util").1 =
        some { name := "/proj/lib/util.luau" } ∧
      r.startDirectory after (some "/proj/main.luau") =
        r.startDirectory start.disk (some "/proj/main.luau") ∧
      r.resolveString after (some "/proj/main.luau") "./lib/util" =
        r.resolveString start.disk (some "/proj/main.luau") "./lib/util" := by
  intro start r path after
  have hroot : (Path.ofString "/proj").absolute = true := by decide
  have hreached : Session.Reached start ⟨r, start.disk⟩ := by
    refine .step .start (.operation (.openDocument draftDocument) ?_)
    rintro uri ⟨⟩
    exact .read (by rfl : Uri.read "file:///proj/lib/util.luau" = .ok _)
  have hpath : path.IsCanonical := ⟨["proj", "lib", "util.luau"], rfl, by decide⟩
  have huri : Uri.ofPath? path = some draftDocument.uri := by rfl
  have hopen : r.documents.get? draftDocument.uri = some draftDocument := by decide +kernel
  have hwrites := mainFile.writes_insert hpath draftDocument.content
  have hcontext : ∀ place, (some "/proj/main.luau").bind r.contextPath? = some place →
      ¬start.disk.Makes path place := by
    intro place hplace hmakes
    have hmain : (some "/proj/main.luau").bind r.contextPath? =
        some (Path.ofNames ["proj", "main.luau"]) := by decide +kernel
    obtain rfl := Option.some.inj (hmain.symm.trans hplace)
    exact absurd hmakes.2.2 (by decide)
  obtain ⟨hstart, hsame⟩ := resolveString_of_writes hroot hreached huri hopen hwrites hcontext
  refine ⟨hroot, hreached, huri, hopen, hwrites, by decide +kernel, hstart, hsame _ ?_⟩
  intro target htarget hmakes
  have hleads : (r.target start.disk (some "/proj/main.luau") "./lib/util").1 =
      .path (Path.ofNames ["proj", "lib", "util"]) := by decide +kernel
  obtain rfl := RequireTarget.path.inj (hleads.symm.trans htarget)
  exact absurd hmakes.2.2 (by decide)

/-- A document that stands for a directory that is not there. -/
def libraryDocument : Document :=
  ⟨⟨"file", some "", "/proj/lib/init.luau", none, none⟩, .luau, 1, "return 1"⟩

/-- Its directory names it only after the write, and only then requires start there. -/
theorem resolveString_of_writes_library :
    let start := Session.new none (Path.ofString "/proj") {} {} mainFile.fileSystem
    let r := start.resolver.didOpen libraryDocument
    let path := Path.ofNames ["proj", "lib", "init.luau"]
    let after := (mainFile.insert path (some libraryDocument.content)).fileSystem
    (Path.ofString "/proj").absolute = true ∧ Session.Reached start ⟨r, start.disk⟩ ∧
      path.IsCanonical ∧ Uri.ofPath? path = some libraryDocument.uri ∧
      r.documents.get? libraryDocument.uri = some libraryDocument ∧
      start.disk.isThere path = false ∧
      start.disk.Writes after path libraryDocument.content ∧
      (r.resolveString start.disk none "lib").1 ≠ (r.resolveString after none "lib").1 ∧
      r.startDirectory start.disk (some "/proj/lib") ≠
        r.startDirectory after (some "/proj/lib") := by
  intro start r path after
  have hpath : path.IsCanonical := ⟨["proj", "lib", "init.luau"], rfl, by decide⟩
  have hreached : Session.Reached start ⟨r, start.disk⟩ := by
    refine .step .start (.operation (.openDocument libraryDocument) ?_)
    rintro uri ⟨⟩
    exact .read (by rfl : Uri.read "file:///proj/lib/init.luau" = .ok _)
  refine ⟨by decide, hreached, hpath, rfl, by decide +kernel, by decide +kernel,
    mainFile.writes_insert hpath libraryDocument.content, ?_, ?_⟩
  · decide +kernel
  · decide +kernel

end Resolver

end LuauWorkspace
