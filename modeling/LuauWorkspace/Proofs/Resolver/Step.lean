import LuauWorkspace.Proofs.Resolver.Questions

/-! # What operations change

Every operation leaves the resolver as it is, puts documents in force, puts settings and an index in
force and forgets the configurations, stores what the game engine sends, or asks a question. -/

namespace LuauWorkspace.Resolver

/-- The indices that can be in force after `r`: its own, none, or that of a tree under its root. -/
def NextIndex (r : Resolver) (index : TreeIndex) : Prop :=
  index = r.index ∨ index = .empty ∨ ∃ tree, index = TreeIndex.ofTree r.root.toString tree

/-- What an operation can make of a resolver. -/
inductive Outcome (r : Resolver) (disk : FileSystem) : Operation → Resolver → Prop where
  | unchanged {operation : Operation} : Outcome r disk operation r
  | documents {operation : Operation} {uri : Uri} {documents : DocumentTable}
      (huri : operation.uri? = some uri)
      (hothers : ∀ key, key ≠ uri.key → documents.find? key = r.documents.find? key) :
      Outcome r disk operation (r.putDocuments uri documents)
  | forgotten {operation : Operation} {settings : Settings} {index : TreeIndex}
      (hindex : r.NextIndex index) :
      Outcome r disk operation { r with settings, index, configs := [] }
  | plugin {operation : Operation} {info : Json} :
      Outcome r disk operation { r with plugin := some info }
  | asked {query : Query} : Outcome r disk (.ask query) (query.ask r disk).2

variable {r after : Resolver} {disk : FileSystem}

/-! ## Documents of other files -/

/-- What lies over a file whose uri has another key stays when one document changes. -/
theorem document?_of_others {documents others : DocumentTable} {uri : Uri} {path : Path}
    (hothers : ∀ key, key ≠ uri.key → others.find? key = documents.find? key)
    (hpath : ∀ fileUri, Uri.ofPath? path = some fileUri → fileUri.key ≠ uri.key) :
    FileSystem.document? others path = FileSystem.document? documents path := by
  rw [FileSystem.document?, FileSystem.document?]
  cases hfile : Uri.ofPath? path with
  | none => rfl
  | some fileUri => exact hothers fileUri.key (hpath fileUri hfile)

/-- A resolver sees the same of a file when what lies over it and the file on the disk stay. -/
theorem files_congr {other : FileSystem} {path : Path}
    (hdocument : FileSystem.document? after.documents path =
      FileSystem.document? r.documents path)
    (hisFile : other.isFile path = disk.isFile path) (hread : other.read path = disk.read path) :
    (after.files other).isFile path = (r.files disk).isFile path ∧
      (after.files other).read path = (r.files disk).read path := by
  constructor
  · simp only [files, FileSystem.withDocuments, hdocument, hisFile]
  · simp only [files, FileSystem.withDocuments, hdocument, hread]

/-! ## Events about documents -/

theorem documents_putDocuments (r : Resolver) (uri : Uri) (documents : DocumentTable) :
    (r.putDocuments uri documents).documents = documents := by
  rw [putDocuments]
  split
  · rfl
  · rfl

theorem didOpen_of_ok {document : Document} (h : (r.documents.add document).1 = .ok ()) :
    r.didOpen document = r.putDocuments document.uri (r.documents.add document).2 := by
  have hadd : r.documents.add document = (.ok (), (r.documents.add document).2) := Prod.ext h rfl
  rw [didOpen, hadd]

theorem didOpen_of_error {document : Document} {cause : DocumentError}
    (h : (r.documents.add document).1 = .error cause) : r.didOpen document = r := by
  have hadd : r.documents.add document = (.error cause, r.documents) :=
    Prod.ext h (DocumentTable.add_of_error h)
  rw [didOpen, hadd]

theorem didChange_of_ok {uri : Uri} {content : String} {version : Option Int}
    (h : (r.documents.change uri content version).1 = .ok ()) :
    r.didChange uri content version =
      r.putDocuments uri (r.documents.change uri content version).2 := by
  have hchange : r.documents.change uri content version =
      (.ok (), (r.documents.change uri content version).2) := Prod.ext h rfl
  rw [didChange, hchange]

theorem didChange_of_error {uri : Uri} {content : String} {version : Option Int}
    {cause : DocumentError} (h : (r.documents.change uri content version).1 = .error cause) :
    r.didChange uri content version = r := by
  have hchange : r.documents.change uri content version = (.error cause, r.documents) :=
    Prod.ext h (DocumentTable.change_of_error h)
  rw [didChange, hchange]

theorem didClose_of_some {uri : Uri} {document : Document}
    (h : (r.documents.close uri).1 = some document) :
    r.didClose uri = r.putDocuments uri (r.documents.close uri).2 := by
  have hclose : r.documents.close uri = (some document, (r.documents.close uri).2) :=
    Prod.ext h rfl
  rw [didClose, hclose]

theorem didClose_of_none {uri : Uri} (h : (r.documents.close uri).1 = none) :
    r.didClose uri = r := by
  have hclose : r.documents.close uri = (none, r.documents) :=
    Prod.ext h (DocumentTable.close_of_none h)
  rw [didClose, hclose]

/-- An operation about a document leaves the resolver as it is, or puts documents in force that
differ in this document only. -/
theorem run_of_uri? (r : Resolver) (disk : FileSystem) {operation : Operation} {uri : Uri}
    (h : operation.uri? = some uri) :
    operation.run r disk = r ∨ ∃ documents, operation.run r disk = r.putDocuments uri documents ∧
      ∀ key, key ≠ uri.key → documents.find? key = r.documents.find? key := by
  cases operation with
  | openDocument document =>
      obtain rfl := Option.some.inj h
      cases hadd : (r.documents.add document).1 with
      | ok _ =>
          refine .inr ⟨_, didOpen_of_ok hadd, fun key hkey => ?_⟩
          rw [DocumentTable.find?_add, if_neg hkey]
      | error cause => exact .inl (didOpen_of_error hadd)
  | changeDocument changed content version =>
      obtain rfl := Option.some.inj h
      cases hchange : (r.documents.change changed content version).1 with
      | ok _ =>
          refine .inr ⟨_, didChange_of_ok hchange, fun key hkey => ?_⟩
          rw [DocumentTable.find?_change, if_neg hkey]
      | error cause => exact .inl (didChange_of_error hchange)
  | closeDocument closed =>
      obtain rfl := Option.some.inj h
      cases hclose : (r.documents.close closed).1 with
      | some document =>
          refine .inr ⟨_, didClose_of_some hclose, fun key hkey => ?_⟩
          rw [DocumentTable.find?_close, if_neg hkey]
      | none => exact .inl (didClose_of_none hclose)
  | _ => cases h

/-! ## Reading the source tree -/

theorem exists_setTree_of_readTree {text : String} (h : (r.readTree text).1 = .ok ()) :
    ∃ tree, (r.readTree text).2 = r.setTree tree := by
  rw [readTree] at h ⊢
  cases hread : SourceTree.read text with
  | ok tree => exact ⟨tree, rfl⟩
  | error cause =>
      rw [hread] at h
      cases h

/-- A text that spells no tree leaves the one in force. -/
theorem readTree_of_error {text : String} {cause : ReloadError}
    (h : (r.readTree text).1 = .error cause) : (r.readTree text).2 = r := by
  rw [readTree] at h ⊢
  cases hread : SourceTree.read text with
  | ok tree =>
      rw [hread] at h
      cases h
  | error cause => rfl

/-- What reading the source tree again amounts to: the tree is taken away, its file cannot be read,
or what the file holds is read. -/
theorem reload_eq (r : Resolver) (disk : FileSystem) :
    r.reload disk = (.ok false, r.clearTree) ∨
      (∃ cause, r.reload disk = (.error (.unreadable (r.settings.treeFile r.root) cause), r)) ∨
      ∃ text, r.reload disk = ((r.readTree text).1.map fun _ => true, (r.readTree text).2) := by
  rw [reload]
  split
  · exact .inl rfl
  · simp only
    split
    · exact .inl rfl
    · split
      · next cause _ => exact .inr (.inl ⟨cause, rfl⟩)
      · next text _ => exact .inr (.inr ⟨text, rfl⟩)

/-- Reading the source tree again puts a tree in force or takes it away. -/
theorem reload_cases {loaded : Bool} (h : (r.reload disk).1 = .ok loaded) :
    (r.reload disk).2 = r.clearTree ∨ ∃ tree, (r.reload disk).2 = r.setTree tree := by
  rcases reload_eq r disk with heq | ⟨cause, heq⟩ | ⟨text, heq⟩
  · rw [heq]
    exact .inl rfl
  · rw [heq] at h
    cases h
  · rw [heq] at h ⊢
    cases hread : (r.readTree text).1 with
    | ok _ => exact .inr (exists_setTree_of_readTree hread)
    | error cause =>
        rw [hread] at h
        cases h

/-- Where that fails, all stays as it was. -/
theorem reload_of_error {cause : ReloadError} (h : (r.reload disk).1 = .error cause) :
    (r.reload disk).2 = r := by
  rcases reload_eq r disk with heq | ⟨cause, heq⟩ | ⟨text, heq⟩
  · rw [heq] at h
    cases h
  · rw [heq]
  · rw [heq] at h ⊢
    cases hread : (r.readTree text).1 with
    | ok _ =>
        rw [hread] at h
        cases h
    | error cause => exact readTree_of_error hread

theorem outcome_reload {operation : Operation} {settings : Settings}
    {configs : List (Path × AnalysisConfig)} {loaded : Bool}
    (h : (reload { r with settings, configs } disk).1 = .ok loaded) :
    r.Outcome disk operation (reload { r with settings, configs } disk).2 := by
  rcases reload_cases h with heq | ⟨tree, heq⟩
  · rw [heq]
    exact .forgotten (.inr (.inl rfl))
  · rw [heq]
    exact .forgotten (.inr (.inr ⟨tree, rfl⟩))

/-- A file that has changed is a configuration file, the file of the source tree, or neither. -/
theorem didChangeFile_eq (r : Resolver) (disk : FileSystem) (path : Path) :
    (path.normalize.fileName? = some AnalysisConfig.fileName ∧
        r.didChangeFile disk path = (.ok (), r.forgetConfigs)) ∨
      (path.normalize.fileName? ≠ some AnalysisConfig.fileName ∧
        path.normalize = r.settings.treeFile r.root ∧
        r.didChangeFile disk path = ((r.reload disk).1.map fun _ => (), (r.reload disk).2)) ∨
      (path.normalize ≠ r.settings.treeFile r.root ∧ r.didChangeFile disk path = (.ok (), r)) := by
  rw [didChangeFile]
  split
  · next hconfig => exact .inl ⟨hconfig, rfl⟩
  · next hconfig =>
      split
      · next htree => exact .inr (.inl ⟨hconfig, htree, rfl⟩)
      · next htree => exact .inr (.inr ⟨htree, rfl⟩)

theorem didChangeFile_of_error {path : Path} {cause : ReloadError}
    (h : (r.didChangeFile disk path).1 = .error cause) : (r.didChangeFile disk path).2 = r := by
  rcases didChangeFile_eq r disk path with ⟨-, heq⟩ | ⟨-, -, heq⟩ | ⟨-, heq⟩
  · rw [heq] at h
    cases h
  · rw [heq] at h ⊢
    cases hreload : (r.reload disk).1 with
    | ok _ =>
        rw [hreload] at h
        cases h
    | error cause => exact reload_of_error hreload
  · rw [heq]

/-! ## Operations -/

theorem outcome_of_uri? {operation : Operation} {uri : Uri} (h : operation.uri? = some uri) :
    r.Outcome disk operation (operation.run r disk) := by
  rcases run_of_uri? r disk h with hrun | ⟨documents, hrun, hothers⟩
  · rw [hrun]
    exact .unchanged
  · rw [hrun]
    exact .documents h hothers

theorem outcome_run (r : Resolver) (disk : FileSystem) (operation : Operation) :
    r.Outcome disk operation (operation.run r disk) := by
  -- Reading the tree again, with whatever settings, either succeeds or leaves all as it was.
  have hreload : ∀ {operation : Operation},
      r.Outcome disk operation (r.reload disk).2 := by
    intro operation
    cases houtcome : (r.reload disk).1 with
    | ok loaded => exact outcome_reload houtcome
    | error cause =>
        rw [reload_of_error houtcome]
        exact .unchanged
  cases operation with
  | openDocument document => exact outcome_of_uri? rfl
  | changeDocument uri content version => exact outcome_of_uri? rfl
  | closeDocument uri => exact outcome_of_uri? rfl
  | fileChanged path =>
      rw [Operation.run]
      rcases didChangeFile_eq r disk path with ⟨-, heq⟩ | ⟨-, -, heq⟩ | ⟨-, heq⟩
      · rw [heq]
        exact .forgotten (.inl rfl)
      · rw [heq]
        exact hreload
      · rw [heq]
        exact .unchanged
  | forgetConfigs => exact .forgotten (.inl rfl)
  | setTree tree => exact .forgotten (.inr (.inr ⟨tree, rfl⟩))
  | readTree text =>
      rw [Operation.run]
      cases hread : (r.readTree text).1 with
      | ok _ =>
          obtain ⟨tree, heq⟩ := exists_setTree_of_readTree hread
          rw [heq]
          exact .forgotten (.inr (.inr ⟨tree, rfl⟩))
      | error cause =>
          rw [readTree_of_error hread]
          exact .unchanged
  | clearTree => exact .forgotten (.inr (.inl rfl))
  | reload => exact hreload
  | putSettings settings => exact .forgotten (.inl rfl)
  | adoptSettings settings =>
      rw [Operation.run, adoptSettings]
      cases houtcome : ((r.putSettings settings).reload disk).1 with
      | ok loaded => exact outcome_reload houtcome
      | error cause =>
          rw [reload_of_error houtcome]
          exact .forgotten (.inl rfl)
  | setPlugin info => exact .plugin
  | ask query => exact .asked

end LuauWorkspace.Resolver
