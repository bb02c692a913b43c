import LuauWorkspace.Proofs.Document.Keys
import LuauWorkspace.Proofs.Resolver.Identity

/-! # Open documents lie over the disk

What a session shows of a file depends on the events about its document and on the disk only. All
ways to the text of the file agree on it. -/

namespace LuauWorkspace

/-! ## What is open under a key -/

/-- What a client has open: a document without the uri it was opened with. -/
structure OpenText where
  language : Language
  version : Int
  content : String

/-- What is open when a document is. -/
def Document.openText (document : Document) : OpenText :=
  ⟨document.language, document.version, document.content⟩

namespace Event

/-- Whether an event opens, changes or closes the document under a key. -/
def concerns (key : String) : Event → Bool
  | .operation done => done.uri?.any (·.key == key)
  | .diskChange _ => false

/-- What is open after an event about a document when `held` was open before it. What is open is
not opened again, and only what is open can be changed. -/
def openAfter (held : Option OpenText) : Event → Option OpenText
  | .operation (.openDocument document) => held <|> some document.openText
  | .operation (.changeDocument _ content version) =>
    held.map fun text =>
      { text with content, version := version.getD (min (text.version + 1) 2147483647) }
  | .operation (.closeDocument _) => none
  | _ => held

end Event

/-- What is open under a key after events, by the events about this key alone. -/
def openText? (key : String) (events : List Event) : Option OpenText :=
  (events.filter (·.concerns key)).foldl Event.openAfter none

theorem openText?_concat (key : String) (events : List Event) (event : Event) :
    openText? key (events ++ [event]) =
      if event.concerns key then event.openAfter (openText? key events)
      else openText? key events := by
  rw [openText?, List.filter_append, List.foldl_append]
  by_cases hconcerns : event.concerns key = true
  · rw [List.filter_cons_of_pos hconcerns, if_pos hconcerns]
    rfl
  · rw [List.filter_cons_of_neg hconcerns, if_neg hconcerns]
    rfl

namespace Resolver

variable {r : Resolver} {disk : FileSystem}

/-- What a resolver has open under a key. -/
def held? (r : Resolver) (key : String) : Option OpenText :=
  (r.documents.find? key).map Document.openText

/-! ## One operation -/

/-- An operation that is about no document leaves the documents as they are. -/
theorem documents_run {operation : Operation} (h : operation.uri? = none) :
    (operation.run r disk).documents = r.documents := by
  have houtcome := outcome_run r disk operation
  generalize operation.run r disk = after at houtcome ⊢
  cases houtcome with
  | unchanged => rfl
  | documents huri _ =>
      rw [h] at huri
      cases huri
  | forgotten _ => rfl
  | plugin => rfl
  | @asked query =>
      obtain ⟨configs, hkeeps⟩ := r.ask_keeps disk query
      rw [hkeeps]

theorem documents_didOpen (r : Resolver) (document : Document) :
    (r.didOpen document).documents = (r.documents.add document).2 := by
  cases hadd : (r.documents.add document).1 with
  | ok _ => rw [didOpen_of_ok hadd, documents_putDocuments]
  | error cause => rw [didOpen_of_error hadd, DocumentTable.add_of_error hadd]

theorem documents_didChange (r : Resolver) (uri : Uri) (content : String)
    (version : Option Int) :
    (r.didChange uri content version).documents = (r.documents.change uri content version).2 := by
  cases hchange : (r.documents.change uri content version).1 with
  | ok _ => rw [didChange_of_ok hchange, documents_putDocuments]
  | error cause => rw [didChange_of_error hchange, DocumentTable.change_of_error hchange]

theorem documents_didClose (r : Resolver) (uri : Uri) :
    (r.didClose uri).documents = (r.documents.close uri).2 := by
  cases hclose : (r.documents.close uri).1 with
  | some document => rw [didClose_of_some hclose, documents_putDocuments]
  | none => rw [didClose_of_none hclose, DocumentTable.close_of_none hclose]

theorem held?_didOpen (r : Resolver) (document : Document) (key : String) :
    (r.didOpen document).held? key =
      if document.uri.key = key then r.held? key <|> some document.openText else r.held? key := by
  rw [held?, held?, documents_didOpen, DocumentTable.find?_add]
  by_cases hkey : key = document.uri.key
  · rw [if_pos hkey, if_pos hkey.symm]
    cases r.documents.find? key with
    | some held => rfl
    | none => rfl
  · rw [if_neg hkey, if_neg (Ne.symm hkey)]

/-- The document under a key after a change. -/
theorem find?_didChange (r : Resolver) (uri : Uri) (content : String) (version : Option Int)
    (key : String) :
    (r.didChange uri content version).documents.find? key =
      if uri.key = key then (r.documents.find? key).map (·.update content version)
      else r.documents.find? key := by
  rw [documents_didChange, DocumentTable.find?_change]
  simp only [eq_comm]

/-- The document under a key after one has been closed. -/
theorem find?_didClose (r : Resolver) (uri : Uri) (key : String) :
    (r.didClose uri).documents.find? key =
      if uri.key = key then none else r.documents.find? key := by
  rw [documents_didClose, DocumentTable.find?_close]
  simp only [eq_comm]

theorem held?_didChange (r : Resolver) (uri : Uri) (content : String) (version : Option Int)
    (key : String) :
    (r.didChange uri content version).held? key =
      if uri.key = key then (r.held? key).map fun text =>
        { text with content, version := version.getD (min (text.version + 1) 2147483647) }
      else r.held? key := by
  rw [held?, held?, find?_didChange]
  split
  · rw [Option.map_map, Option.map_map]
    rfl
  · rfl

theorem held?_didClose (r : Resolver) (uri : Uri) (key : String) :
    (r.didClose uri).held? key = if uri.key = key then none else r.held? key := by
  rw [held?, held?, find?_didClose]
  split
  · rfl
  · rfl

/-- What is open under a key changes as the events about it say. -/
theorem held?_run (r : Resolver) (disk : FileSystem) (operation : Operation) (key : String) :
    (operation.run r disk).held? key =
      if (Event.operation operation).concerns key then
        (Event.operation operation).openAfter (r.held? key)
      else r.held? key := by
  cases huri : operation.uri? with
  | none =>
      rw [Event.concerns, huri, held?, documents_run huri]
      rfl
  | some uri =>
      have hconcerns : (Event.operation operation).concerns key = (uri.key == key) := by
        rw [Event.concerns, huri]
        rfl
      simp only [hconcerns, beq_iff_eq]
      cases operation with
      | openDocument document =>
          obtain rfl := Option.some.inj huri
          exact r.held?_didOpen document key
      | changeDocument changed content version =>
          obtain rfl := Option.some.inj huri
          exact r.held?_didChange changed content version key
      | closeDocument closed =>
          obtain rfl := Option.some.inj huri
          exact r.held?_didClose closed key
      | _ => cases huri

/-- An operation opens, changes or closes one document, or leaves all as they are. -/
theorem next_documents_run (r : Resolver) (disk : FileSystem) (operation : Operation) :
    r.documents.Next (operation.run r disk).documents := by
  cases operation with
  | openDocument document =>
      rw [Operation.run, documents_didOpen]
      exact .added document
  | changeDocument uri content version =>
      rw [Operation.run, documents_didChange]
      exact .changed uri content version
  | closeDocument uri =>
      rw [Operation.run, documents_didClose]
      exact .closed uri
  | _ =>
      rw [documents_run rfl]
      exact .kept

/-! ## One file -/

/-- What a resolver shows of the file at `path`, which has the uri `uri`, when `held` is open
there: the text that is open, or else that of the disk. -/
structure Shows (r : Resolver) (disk : FileSystem) (path : Path) (uri : Uri)
    (held : Option OpenText) : Prop where
  isFile_iff : (r.files disk).isFile path = true ↔
    (∃ text, held = some text) ∨ disk.isFile path = true
  read_open : ∀ text, held = some text → (r.files disk).read path = .ok text.content
  read_closed : held = none → (r.files disk).read path = disk.read path
  /-- The document that is open is the document of the module. -/
  document_open : ∀ text, held = some text →
    ∃ document, r.document? disk path.toString = some ⟨document, false⟩ ∧
      document.openText = text
  /-- When none is open, a temporary one is made if the disk can be read. -/
  document_closed : held = none → r.document? disk path.toString =
    (disk.read path).toOption.map fun content => ⟨⟨uri, Language.ofPath path, 0, content⟩, true⟩
  source_eq : path.extension? ≠ some "json" →
    (r.source? disk path.toString).map ModuleSource.source = ((r.files disk).read path).toOption

theorem codeFile?_toString {path : Path} (h : path.IsCanonical) :
    r.codeFile? path.toString = some (path, CodeKind.ofPath path) := by
  rw [codeFile?, if_neg (by simp [isVirtual_toString h.absolute_eq]), path_toString h]

theorem document?_toString (disk : FileSystem) {path : Path} (h : path.IsCanonical) :
    r.document? disk path.toString = r.documentOfPath? disk path := by
  rw [document?, fileOf?_toString h]
  rfl

theorem documentOfPath?_eq (disk : FileSystem) {path : Path} {uri : Uri}
    (huri : Uri.ofPath? path = some uri) :
    r.documentOfPath? disk path =
      match r.documents.find? uri.key with
      | some document => some ⟨document, false⟩
      | none =>
        (disk.read path).toOption.map fun content =>
          ⟨⟨uri, Language.ofPath path, 0, content⟩, true⟩ := by
  rw [documentOfPath?, huri, Option.bind_eq_bind, Option.bind_some, DocumentTable.get?]
  cases r.documents.find? uri.key with
  | some document => rfl
  | none =>
      rw [Option.map_eq_bind]
      rfl

theorem document?_files {path : Path} {uri : Uri} (huri : Uri.ofPath? path = some uri) :
    FileSystem.document? r.documents path = r.documents.find? uri.key := by
  rw [FileSystem.document?, huri, Option.bind_some, DocumentTable.get?]

theorem isFile_files (disk : FileSystem) {path : Path} {uri : Uri}
    (huri : Uri.ofPath? path = some uri) :
    (r.files disk).isFile path = ((r.documents.find? uri.key).isSome || disk.isFile path) := by
  rw [← document?_files huri]
  rfl

theorem read_files (disk : FileSystem) {path : Path} {uri : Uri}
    (huri : Uri.ofPath? path = some uri) :
    (r.files disk).read path =
      match r.documents.find? uri.key with
      | some document => .ok document.content
      | none => disk.read path := by
  rw [← document?_files huri]
  rfl

/-- All ways to the text of a module without conversion read the same. -/
theorem content_documentOfPath? (disk : FileSystem) {path : Path} {uri : Uri}
    (huri : Uri.ofPath? path = some uri) :
    (r.documentOfPath? disk path).map (·.document.content) =
      ((r.files disk).read path).toOption := by
  rw [documentOfPath?_eq disk huri, read_files disk huri]
  cases r.documents.find? uri.key with
  | some document => rfl
  | none =>
      rw [Option.map_map]
      exact Option.map_id'

theorem source_source? (disk : FileSystem) {path : Path} (h : path.IsCanonical)
    (hextension : path.extension? ≠ some "json") :
    (r.source? disk path.toString).map ModuleSource.source =
      (r.documentOfPath? disk path).map (·.document.content) := by
  simp only [source?, codeFile?_toString h, Option.bind_eq_bind, Option.bind_some]
  cases r.documentOfPath? disk path with
  | none => rfl
  | some found =>
      simp only [Option.bind_some, sourceOf?, if_neg hextension]
      rfl

/-- Every file is shown as it is open or else as it is on the disk. -/
theorem shows_held? (r : Resolver) (disk : FileSystem) {path : Path} {uri : Uri}
    (h : path.IsCanonical) (huri : Uri.ofPath? path = some uri) :
    r.Shows disk path uri (r.held? uri.key) := by
  have hdocument := (r.document?_toString disk h).trans (documentOfPath?_eq disk huri)
  have hsource := fun hextension =>
    (source_source? disk h hextension).trans (r.content_documentOfPath? disk huri)
  have hisFile := r.isFile_files disk huri
  have hread := r.read_files disk huri
  rw [held?]
  cases hfound : r.documents.find? uri.key with
  | some document =>
      rw [hfound] at hdocument hisFile hread
      refine ⟨?_, ?_, by rintro ⟨⟩, ?_, by rintro ⟨⟩, hsource⟩
      · simp [hisFile]
      · rintro text ⟨⟩
        exact hread
      · rintro text ⟨⟩
        exact ⟨document, hdocument, rfl⟩
  | none =>
      rw [hfound] at hdocument hisFile hread
      refine ⟨?_, by rintro text ⟨⟩, fun _ => hread, by rintro text ⟨⟩, fun _ => hdocument,
        hsource⟩
      simp [hisFile]

end Resolver

/-! ## Runs -/

namespace Session

/-- `s` is what `start` becomes by the events, one after another. -/
inductive Run (start : Session) : List Event → Session → Prop where
  | nil : Run start [] start
  | concat {events : List Event} {s s' : Session} {event : Event} (h : Run start events s)
      (hs : Step s event s') : Run start (events ++ [event]) s'

variable {start s s' : Session} {event : Event} {events : List Event}

theorem Step.held?_eq (hs : Step s event s') (key : String) :
    s'.resolver.held? key =
      if event.concerns key then event.openAfter (s.resolver.held? key)
      else s.resolver.held? key := by
  cases hs with
  | operation operation _ => exact Resolver.held?_run _ _ operation key
  | diskChange _ => rfl

/-- What is open after a run is told by the events of the run. -/
theorem Run.held?_eq (h : Run start events s) (hempty : start.resolver.documents = .empty)
    (key : String) : s.resolver.held? key = openText? key events := by
  induction h with
  | nil =>
      rw [Resolver.held?, hempty]
      rfl
  | concat _ hs ih => rw [hs.held?_eq, ih, openText?_concat]

theorem Run.nodup_keys (h : Run start events s) (hempty : start.resolver.documents = .empty) :
    s.resolver.documents.keys.Nodup := by
  induction h with
  | nil =>
      rw [hempty]
      exact List.nodup_nil
  | concat _ hs ih =>
      cases hs with
      | operation operation _ => exact (Resolver.next_documents_run _ _ operation).nodup_keys ih
      | diskChange _ => exact ih

/-- After every run of a new session, a file is shown as the events about its document leave it
open, or else as the disk has it; and a document is open for every key that is left open. -/
theorem shows_of_run {home : Option String} {root : Path} {defaults : AnalysisConfig}
    {settings : Settings} {disk : FileSystem}
    (h : Run (new home root defaults settings disk) events s) :
    (∀ path : Path, path.IsCanonical → ∃ uri, Uri.ofPath? path = some uri ∧
      s.resolver.Shows s.disk path uri (openText? uri.key events)) ∧
    {key : String | (openText? key events).isSome = true}.encard = s.resolver.documents.size := by
  have hheld := h.held?_eq rfl
  constructor
  · intro path hpath
    have huri : ∃ uri, Uri.ofPath? path = some uri := by
      rw [Uri.ofPath?, if_pos hpath.absolute_eq]
      exact ⟨_, rfl⟩
    obtain ⟨uri, huri⟩ := huri
    refine ⟨uri, huri, ?_⟩
    rw [← hheld]
    exact s.resolver.shows_held? s.disk hpath huri
  · have hset : {key : String | (openText? key events).isSome = true} =
        {key : String | (s.resolver.documents.find? key).isSome = true} := by
      simp only [← hheld, Resolver.held?, Option.isSome_map]
    rw [hset]
    exact DocumentTable.encard_keys (h.nodup_keys rfl)

/-- A document that is opened under its uri with a separator at the end and changed under the uri
without it, so that its version goes up by one. -/
def twoSpellings : List Event :=
  [.operation (.openDocument ⟨⟨"file", some "", "/p/a.luau/", none, none⟩, .luau, 1, "return 1"⟩),
    .operation (.changeDocument ⟨"file", some "", "/p/a.luau", none, none⟩ "return 2" none)]

/-- The file of the document is on no disk, and yet it is shown. -/
theorem shows_of_run_twoSpellings :
    let start := new none (Path.ofString "/p") {} {} MemoryFiles.empty.fileSystem
    let path := Path.ofNames ["p", "a.luau"]
    ∃ s uri, Run start twoSpellings s ∧ path.IsCanonical ∧ Uri.ofPath? path = some uri ∧
      openText? uri.key twoSpellings = some ⟨.luau, 2, "return 2"⟩ ∧
      s.resolver.Shows s.disk path uri (some ⟨.luau, 2, "return 2"⟩) ∧
      s.resolver.documents.size = 1 := by
  intro start path
  have hread : Uri.IsValid ⟨"file", some "", "/p/a.luau/", none, none⟩ :=
    .read (by rfl : Uri.read "file:///p/a.luau/" = .ok _)
  have huri : Uri.ofPath? path = some ⟨"file", some "", "/p/a.luau", none, none⟩ := by rfl
  have hrun : ∃ s, Run start twoSpellings s ∧ s.resolver.documents.size = 1 := by
    refine ⟨_, .concat (.concat .nil (.operation _ ?_)) (.operation _ ?_), ?_⟩
    · rintro uri ⟨⟩
      exact hread
    · rintro uri ⟨⟩
      exact .ofPath huri
    · decide +kernel
  obtain ⟨s, hrun, hsize⟩ := hrun
  have hpath : path.IsCanonical := ⟨["p", "a.luau"], rfl, by decide⟩
  have hopen : openText? (Uri.key ⟨"file", some "", "/p/a.luau", none, none⟩) twoSpellings =
      some ⟨.luau, 2, "return 2"⟩ := by rfl
  obtain ⟨uri, huri', hshows⟩ := (shows_of_run hrun).1 path hpath
  obtain rfl := Option.some.inj (huri.symm.trans huri')
  rw [hopen] at hshows
  exact ⟨s, _, hrun, hpath, huri, hopen, hshows, hsize⟩

end Session

end LuauWorkspace
