import LuauWorkspace.Proofs.Resolver.Overlay

/-! # Names of open documents

The name of the module in an open document leads back to the document exactly when it leads back to
the file that the document stands for. -/

namespace LuauWorkspace

namespace Resolver

variable {r : Resolver}

/-! ## Every document under its own key -/

/-- In every session each open document is filed under the key of the uri it was opened with. -/
theorem isFiled_of_reached {start s : Session} (h : Session.Reached start s)
    (hstart : start.resolver.documents.IsFiled) : s.resolver.documents.IsFiled := by
  induction h with
  | start => exact hstart
  | step _ hs ih =>
      cases hs with
      | operation operation _ => exact (next_documents_run _ _ operation).isFiled ih
      | diskChange _ => exact ih

/-! ## From a uri to a file and back -/

theorem isCanonical_fileOf? (h : r.WellFormed) {name : String} {file : Path}
    (hfile : r.fileOf? name = some file) : file.IsCanonical := by
  rw [fileOf?] at hfile
  split at hfile
  · obtain ⟨node, hnode, hfile⟩ := Option.bind_eq_some_iff.mp hfile
    exact h.index.isCanonical_file node (h.index.mem_of_ofPlace? hnode).1 file hfile
  · exact Option.some.inj hfile ▸ isCanonical_path h name

/-- The module in the document of a file is the module in the file. -/
theorem nameOfUri_of_ofPath? {path : Path} {uri : Uri} (hpath : path.IsCanonical)
    (huri : Uri.ofPath? path = some uri) : r.nameOfUri uri = r.nameOfPath path := by
  obtain ⟨text, htext, hsame⟩ :=
    Uri.denotes_of_key_eq (Uri.wellFormed_of_ofPath? huri) hpath.isRooted huri rfl
  simp only [nameOfUri, htext, hsame]

/-- A file whose text is an open document has a uri with the key of the document. -/
theorem exists_uri_of_documentOfPath? {disk : FileSystem} {file : Path} {document : Document}
    (h : r.documentOfPath? disk file = some ⟨document, false⟩) :
    ∃ uri, Uri.ofPath? file = some uri ∧ r.documents.find? uri.key = some document := by
  cases huri : Uri.ofPath? file with
  | none =>
      rw [documentOfPath?, huri] at h
      cases h
  | some uri =>
      refine ⟨uri, rfl, ?_⟩
      rw [documentOfPath?_eq disk huri] at h
      split at h
      · next found hfound =>
          obtain ⟨rfl⟩ := ModuleDocument.mk.inj (Option.some.inj h)
          exact hfound
      · obtain ⟨content, -, hcontent⟩ := Option.map_eq_some_iff.mp h
        cases hcontent

/-- An open document is the text of no other file than the one it was opened for. -/
theorem eq_of_documentOfPath? (hfiled : r.documents.IsFiled) {disk : FileSystem}
    {path file : Path} {uri : Uri} {document : Document} (hpath : path.IsCanonical)
    (hcanonical : file.IsCanonical) (huri : Uri.ofPath? path = some uri)
    (hopen : r.documents.get? uri = some document)
    (h : r.documentOfPath? disk file = some ⟨document, false⟩) : file = path := by
  obtain ⟨fileUri, hfileUri, hfound⟩ := exists_uri_of_documentOfPath? h
  have hkey : fileUri.key = uri.key :=
    (hfiled _ _ hfound).symm.trans (hfiled _ _ hopen)
  exact Uri.eq_of_key_eq hcanonical.isRooted hpath.isRooted hfileUri huri hkey

/-! ## The document of its own name -/

/-- In every session with an absolute root, the name of the module in the open document of a file is
read back as this document exactly when the file is kept. -/
theorem document?_nameOfUri_iff {home : Option String} {root : String} {defaults : AnalysisConfig}
    {settings : Settings} {disk : FileSystem} {s : Session}
    (hroot : (Path.ofString root).absolute = true)
    (h : Session.Reached (Session.new home (Path.ofString root) defaults settings disk) s)
    {path : Path} {uri : Uri} {document : Document} (hpath : path.IsCanonical)
    (huri : Uri.ofPath? path = some uri)
    (hopen : s.resolver.documents.get? uri = some document) :
    s.resolver.document? s.disk (s.resolver.nameOfUri uri) = some ⟨document, false⟩ ↔
      s.resolver.index.Keeps path := by
  have hwell := wellFormed_of_reached h
    (wellFormed_new hroot (Path.isProper_ofString root) home defaults settings disk)
  have hfiled := isFiled_of_reached h DocumentTable.isFiled_empty
  have hsame : s.resolver.absolute path = path := hpath.absoluteIn_eq s.resolver.root
  rw [nameOfUri_of_ofPath? hpath huri]
  constructor
  · intro hdocument
    obtain ⟨file, hfile, hdocument⟩ := Option.bind_eq_some_iff.mp hdocument
    obtain rfl := eq_of_documentOfPath? hfiled hpath (isCanonical_fileOf? hwell hfile) huri hopen
      hdocument
    have hkeeps := keeps_of_fileOf? hwell hpath.isProper (hfile.trans (congrArg some hsame.symm))
    rw [hsame] at hkeeps
    exact hkeeps
  · intro hkeeps
    have hfile := (nameOfPath_spec hwell hpath.isProper (hsame.symm ▸ hkeeps)).1
    rw [DocumentTable.get?] at hopen
    rw [document?, hfile, hsame, Option.bind_eq_bind, Option.bind_some,
      documentOfPath?_eq s.disk huri, hopen]

/-- The document of the later of two modules of one name, opened with a separator at the end. -/
def laterDocument : Document :=
  ⟨⟨"file", some "", "/proj/b.luau/", none, none⟩, .luau, 7, "return 2"⟩

/-- Its name is that of both modules, and leads back to it. -/
theorem document?_nameOfUri_of_later :
    let start := Session.new none (Path.ofString "/proj") {} {} MemoryFiles.empty.fileSystem
    let r := (start.resolver.setTree namesakes).didOpen laterDocument
    let path := Path.ofNames ["proj", "b.luau"]
    let uri : Uri := ⟨"file", some "", "/proj/b.luau", none, none⟩
    (Path.ofString "/proj").absolute = true ∧ Session.Reached start ⟨r, start.disk⟩ ∧
      path.IsCanonical ∧ Uri.ofPath? path = some uri ∧
      r.documents.get? uri = some laterDocument ∧ r.nameOfUri uri = "ProjectRoot/A" ∧
      (r.document? start.disk (r.nameOfUri uri) = some ⟨laterDocument, false⟩ ↔
        r.index.Keeps path) := by
  intro start r path uri
  have hroot : (Path.ofString "/proj").absolute = true := by decide
  have hvalid : laterDocument.uri.IsValid :=
    .read (by rfl : Uri.read "file:///proj/b.luau/" = .ok _)
  have hreached : Session.Reached start ⟨r, start.disk⟩ := by
    refine .step (.step .start (.operation (.setTree namesakes) ?_))
      (.operation (.openDocument laterDocument) ?_)
    · rintro uri ⟨⟩
    · rintro uri ⟨⟩
      exact hvalid
  have hpath : path.IsCanonical := ⟨["proj", "b.luau"], rfl, by decide⟩
  have huri : Uri.ofPath? path = some uri := by rfl
  have hopen : r.documents.get? uri = some laterDocument := by decide +kernel
  have hname : r.nameOfUri uri = "ProjectRoot/A" := by decide +kernel
  exact ⟨hroot, hreached, hpath, huri, hopen, hname,
    document?_nameOfUri_iff hroot hreached hpath huri hopen⟩

/-- The document of the earlier of two modules of one name. -/
def earlierDocument : Document :=
  ⟨⟨"file", some "", "/proj/a.luau", none, none⟩, .luau, 1, "return 1"⟩

/-- A document that stands for no file. -/
def untitledDocument : Document :=
  ⟨⟨"untitled", none, "Untitled-1", none, none⟩, .luau, 1, "return 3"⟩

/-- Two open documents that their own names do not lead to: that of an earlier module, and one that
stands for no file, whose name is taken for a path. -/
theorem document?_nameOfUri_lost :
    let start := Session.new none (Path.ofString "/proj") {} {} MemoryFiles.empty.fileSystem
    ∃ s, Session.Reached start s ∧
      (∃ path, path.IsCanonical ∧ Uri.ofPath? path = some earlierDocument.uri) ∧
      untitledDocument.uri.scheme ≠ "file" ∧
      ∀ document ∈ [earlierDocument, untitledDocument],
        s.resolver.documents.get? document.uri = some document ∧
          (s.resolver.document? s.disk (s.resolver.nameOfUri document.uri)).isNone = true := by
  intro start
  refine ⟨_, .step (.step (.step .start (.operation (.setTree namesakes) ?_))
    (.operation (.openDocument earlierDocument) ?_))
    (.operation (.openDocument untitledDocument) ?_), ?_, by decide, ?_⟩
  · rintro uri ⟨⟩
  · rintro uri ⟨⟩
    exact .read (by rfl : Uri.read "file:///proj/a.luau" = .ok _)
  · rintro uri ⟨⟩
    exact .read (by rfl : Uri.read "untitled:Untitled-1" = .ok _)
  · exact ⟨Path.ofNames ["proj", "a.luau"], ⟨["proj", "a.luau"], rfl, by decide⟩, rfl⟩
  · decide +kernel

end Resolver

end LuauWorkspace
