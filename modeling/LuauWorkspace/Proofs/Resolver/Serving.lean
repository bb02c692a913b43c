import LuauWorkspace.Proofs.Resolver.DocumentNames

/-! # Whose text is read

However its uri is spelled, an open document lies over the one file that the uri denotes. -/

namespace LuauWorkspace

namespace Resolver

variable {r : Resolver} {disk : FileSystem}

/-! ## Where documents come from -/

/-- A document that is open after an operation was opened by it, or was open before under the same
uri. -/
theorem uri_of_find?_run {operation : Operation} {key : String} {document : Document}
    (h : (operation.run r disk).documents.find? key = some document) :
    operation.uri? = some document.uri ∨
      ∃ before, r.documents.find? key = some before ∧ before.uri = document.uri := by
  cases operation with
  | openDocument opened =>
      rw [Operation.run, documents_didOpen, DocumentTable.find?_add] at h
      split at h
      · rcases (Option.orElse_eq_some _ _ _).mp h with hheld | ⟨-, hopened⟩
        · exact .inr ⟨document, hheld, rfl⟩
        · obtain rfl := Option.some.inj hopened
          exact .inl rfl
      · exact .inr ⟨document, h, rfl⟩
  | changeDocument uri content version =>
      rw [Operation.run, find?_didChange] at h
      split at h
      · obtain ⟨before, hbefore, rfl⟩ := Option.map_eq_some_iff.mp h
        exact .inr ⟨before, hbefore, rfl⟩
      · exact .inr ⟨document, h, rfl⟩
  | closeDocument uri =>
      rw [Operation.run, find?_didClose] at h
      split at h
      · cases h
      · exact .inr ⟨document, h, rfl⟩
  | _ =>
      rw [documents_run rfl] at h
      exact .inr ⟨document, h, rfl⟩

/-- In every session that starts without documents, the uris of all open documents have been read or
made from paths. -/
theorem isValid_of_reached {start s : Session} (h : Session.Reached start s)
    (hstart : start.resolver.documents = .empty) {key : String} {document : Document}
    (hfind : s.resolver.documents.find? key = some document) : document.uri.IsValid := by
  induction h generalizing document with
  | start =>
      rw [hstart] at hfind
      cases hfind
  | step _ hs ih =>
      cases hs with
      | operation operation huri =>
          rcases uri_of_find?_run hfind with hopened | ⟨before, hbefore, hsame⟩
          · exact huri _ hopened
          · exact hsame ▸ ih hbefore
      | diskChange _ => exact ih hfind

/-! ## Documents and the files they lie over -/

/-- How open documents lie over the file at `path`, which has the uri `fileUri`. -/
structure Serves (r : Resolver) (disk : FileSystem) (path : Path) (fileUri : Uri) : Prop where
  round_trip : fileUri.Denotes path
  /-- Whatever is filed under the key of the file denotes the file. -/
  denotes : ∀ uri : Uri, uri.IsValid → uri.key = fileUri.key → uri.Denotes path
  /-- No other path has its document there. -/
  path_eq : ∀ other otherUri, Uri.ofPath? (Path.ofString other) = some otherUri →
    otherUri.key = fileUri.key → Path.ofString other = path
  read_open : ∀ document, r.documents.find? fileUri.key = some document →
    document.uri.IsValid ∧ document.uri.Denotes path ∧ (r.files disk).isFile path = true ∧
      (r.files disk).read path = .ok document.content
  read_closed : r.documents.find? fileUri.key = none →
    (r.files disk).isFile path = disk.isFile path ∧ (r.files disk).read path = disk.read path

/-- In every session an open document is read for a path only if its uri denotes the path. -/
theorem serves_of_reached {home : Option String} {root : String} {defaults : AnalysisConfig}
    {settings : Settings}
    {disk : FileSystem} {s : Session}
    (h : Session.Reached (Session.new home (Path.ofString root) defaults settings disk) s)
    {text : String} (habsolute : (Path.ofString text).absolute = true) :
    ∃ fileUri, Uri.ofPath? (Path.ofString text) = some fileUri ∧
      s.resolver.Serves s.disk (Path.ofString text) fileUri := by
  have hpath := Path.isRooted_ofString habsolute
  have huri : ∃ fileUri, Uri.ofPath? (Path.ofString text) = some fileUri := by
    rw [Uri.ofPath?, if_pos habsolute]
    exact ⟨_, rfl⟩
  obtain ⟨fileUri, huri⟩ := huri
  have hdenotes : ∀ uri : Uri, uri.IsValid → uri.key = fileUri.key →
      uri.Denotes (Path.ofString text) :=
    fun uri hvalid hkey => Uri.denotes_of_key_eq hvalid.wellFormed hpath huri hkey
  have hfiled := isFiled_of_reached h DocumentTable.isFiled_empty
  have hisFile := isFile_files (r := s.resolver) s.disk huri
  have hread := read_files (r := s.resolver) s.disk huri
  refine ⟨fileUri, huri, hdenotes fileUri (.ofPath huri) rfl, hdenotes, ?_, ?_, ?_⟩
  · intro other otherUri hother hkey
    have hotherAbsolute : (Path.ofString other).absolute = true := by
      rw [Uri.ofPath?, Option.ite_none_right_eq_some] at hother
      exact hother.1
    exact Uri.eq_of_key_eq (Path.isRooted_ofString hotherAbsolute) hpath hother huri hkey
  · intro document hfind
    have hvalid := isValid_of_reached h rfl hfind
    rw [hfind] at hisFile hread
    exact ⟨hvalid, hdenotes _ hvalid (hfiled _ _ hfind), by simp [hisFile], hread⟩
  · intro hnone
    rw [hnone] at hisFile hread
    exact ⟨by simp [hisFile], hread⟩

/-- A document whose uri is encoded by hand and ends in separators. -/
def oddlySpelled : Document :=
  ⟨⟨"file", some "", "/p/50%25%20%3F%23%C3%A9.luau//", none, none⟩, .luau, 1, "return 1"⟩

/-- A spelling of the path of its file. -/
def oddlySpelledPath : Path := Path.ofString "/p/.//50% ?#é.luau"

/-- A session in which nothing is open. -/
def emptySession : Session :=
  Session.new none (Path.ofString "/p") {} {} MemoryFiles.empty.fileSystem

/-- The session in which the document has been opened. -/
def oddlySpelledSession : Session :=
  ⟨emptySession.resolver.didOpen oddlySpelled, emptySession.disk⟩

/-- The document is read for its file, however the path of the file is spelled. -/
theorem serves_of_oddlySpelled :
    Session.Reached emptySession oddlySpelledSession ∧ oddlySpelledPath.absolute = true ∧
      oddlySpelled.uri.Denotes oddlySpelledPath ∧
      (oddlySpelledSession.resolver.files oddlySpelledSession.disk).read oddlySpelledPath =
        .ok "return 1" := by
  have hreached : Session.Reached emptySession oddlySpelledSession := by
    refine .step .start (.operation (.openDocument oddlySpelled) ?_)
    rintro uri ⟨⟩
    exact .read (by rfl : Uri.read "file:///p/50%25%20%3F%23%C3%A9.luau//" = .ok _)
  have habsolute : oddlySpelledPath.absolute = true := by decide
  obtain ⟨fileUri, huri, hserves⟩ := serves_of_reached hreached habsolute
  have hkey : ∃ fileUri, Uri.ofPath? oddlySpelledPath = some fileUri ∧
      oddlySpelledSession.resolver.documents.find? fileUri.key = some oddlySpelled :=
    ⟨_, rfl, by decide +kernel⟩
  obtain ⟨sameUri, hsame, hfind⟩ := hkey
  obtain rfl := Option.some.inj (huri.symm.trans hsame)
  obtain ⟨-, hdenotes, -, hread⟩ := hserves.read_open _ hfind
  exact ⟨hreached, habsolute, hdenotes, hread⟩

end Resolver

end LuauWorkspace
