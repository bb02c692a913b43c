import LuauWorkspace.Proofs.FileSystem.Changes
import LuauWorkspace.Proofs.Resolver.Invariant

/-! # The source tree in force

The source tree is read again when settings are adopted and when its file has changed on the disk.
Events about documents do not make a workspace read it again, not even those about the document of
its file. All other steps leave the index as it would be read again. -/

namespace LuauWorkspace

namespace Resolver

variable {r after : Resolver} {disk other : FileSystem}

/-! ## Reading the source tree again -/

/-- The file of the source tree. -/
def treePath (r : Resolver) : Path := r.settings.treeFile r.root

/-- What is read of the file of the source tree; none when the tree is disabled or absent. -/
def treeText? (r : Resolver) (disk : FileSystem) : Option (Except ReadError String) :=
  if r.settings.sourcemap.enabled && (r.files disk).isFile r.treePath then
    some ((r.files disk).read r.treePath)
  else none

/-- The index that goes with what is read of the file of the source tree. -/
def indexOf (r : Resolver) : Option (Except ReadError String) → Except ReloadError TreeIndex
  | none => .ok .empty
  | some (.error cause) => .error (.unreadable r.treePath cause)
  | some (.ok text) =>
    match SourceTree.read text with
    | .ok tree => .ok (TreeIndex.ofTree r.root.toString tree)
    | .error cause => .error (.badTree cause)

/-- The index that is put in force when the source tree is read again. -/
def freshIndex (r : Resolver) (disk : FileSystem) : Except ReloadError TreeIndex :=
  (r.reload disk).1.map fun _ => (r.reload disk).2.index

/-- What is read of the file of the source tree decides what reading it again amounts to. -/
theorem reload_eq_treeText? (r : Resolver) (disk : FileSystem) :
    r.reload disk = match r.treeText? disk with
      | none => (.ok false, r.clearTree)
      | some (.error cause) => (.error (.unreadable r.treePath cause), r)
      | some (.ok text) => ((r.readTree text).1.map fun _ => true, (r.readTree text).2) := by
  rw [reload, treeText?, treePath]
  cases henabled : r.settings.sourcemap.enabled with
  | false => simp only [if_true, Bool.false_and, Bool.false_eq_true, if_false]
  | true =>
      cases hisFile : (r.files disk).isFile (r.settings.treeFile r.root) with
      | false => simp only [hisFile, if_true, Bool.true_eq_false, if_false, Bool.and_false,
          Bool.false_eq_true]
      | true =>
          simp only [hisFile, Bool.true_eq_false, if_false, Bool.and_true, if_true]
          cases (r.files disk).read (r.settings.treeFile r.root) with
          | error cause => rfl
          | ok text => rfl

theorem reload_of_treeText?_eq_none (h : r.treeText? disk = none) :
    r.reload disk = (.ok false, r.clearTree) := by
  rw [reload_eq_treeText?, h]

theorem reload_of_treeText? {text : String} {tree : SourceTree}
    (htext : r.treeText? disk = some (.ok text)) (htree : SourceTree.read text = .ok tree) :
    r.reload disk = (.ok true, r.setTree tree) := by
  simp only [reload_eq_treeText?, htext, readTree, htree]
  rfl

theorem reload_of_unreadable {cause : ReadError}
    (htext : r.treeText? disk = some (.error cause)) :
    r.reload disk = (.error (.unreadable r.treePath cause), r) := by
  rw [reload_eq_treeText?, htext]

theorem reload_of_badTree {text : String} {cause : JsonError}
    (htext : r.treeText? disk = some (.ok text)) (htree : SourceTree.read text = .error cause) :
    r.reload disk = (.error (.badTree cause), r) := by
  simp only [reload_eq_treeText?, htext, readTree, htree]
  rfl

theorem freshIndex_eq (r : Resolver) (disk : FileSystem) :
    r.freshIndex disk = r.indexOf (r.treeText? disk) := by
  rw [freshIndex]
  cases htext : r.treeText? disk with
  | none =>
      rw [reload_of_treeText?_eq_none htext]
      rfl
  | some read =>
      cases read with
      | error cause =>
          rw [reload_of_unreadable htext]
          rfl
      | ok text =>
          rw [indexOf]
          cases htree : SourceTree.read text with
          | ok tree =>
              rw [reload_of_treeText? htext htree]
              rfl
          | error cause =>
              rw [reload_of_badTree htext htree]
              rfl

theorem isCanonical_treePath (h : r.WellFormed) : r.treePath.IsCanonical :=
  Path.isCanonical_absoluteIn h.root (Path.isProper_ofString _)

/-- What is put in force when the source tree is read goes with what is read. -/
theorem indexOf_of_reload {loaded : Bool} (h : r.reload disk = (.ok loaded, after)) :
    after.indexOf (after.treeText? disk) = .ok after.index := by
  have hfresh : r.indexOf (r.treeText? disk) = .ok after.index := by
    rw [← freshIndex_eq, freshIndex, h]
    rfl
  have hcases := reload_cases (congrArg Prod.fst h)
  rw [h] at hcases
  rcases hcases with rfl | ⟨tree, rfl⟩
  · exact hfresh
  · exact hfresh

/-- A file that has changed without a failure is a configuration file, the file of the source tree,
or neither. -/
theorem didChangeFile_cases {path : Path} (h : r.didChangeFile disk path = (.ok (), after)) :
    (path.normalize.fileName? = some AnalysisConfig.fileName ∧ after = r.forgetConfigs) ∨
      (path.normalize.fileName? ≠ some AnalysisConfig.fileName ∧
        path.normalize = r.treePath ∧ ∃ loaded, r.reload disk = (.ok loaded, after)) ∨
      (path.normalize ≠ r.treePath ∧ after = r) := by
  rcases didChangeFile_eq r disk path with ⟨hconfig, heq⟩ | ⟨hname, htree, heq⟩ | ⟨htree, heq⟩
  · rw [heq] at h
    exact .inl ⟨hconfig, (Prod.mk.inj h).2.symm⟩
  · rw [heq] at h
    obtain ⟨houtcome, rfl⟩ := Prod.mk.inj h
    cases hreload : (r.reload disk).1 with
    | ok loaded => exact .inr (.inl ⟨hname, htree, loaded, Prod.ext hreload rfl⟩)
    | error cause =>
        rw [hreload] at houtcome
        cases houtcome
  · rw [heq] at h
    exact .inr (.inr ⟨htree, (Prod.mk.inj h).2.symm⟩)

/-- Without a text the index is empty; otherwise it is that of the tree that the text spells. -/
theorem indexOf_cases {text : Option (Except ReadError String)} {index : TreeIndex}
    (h : r.indexOf text = .ok index) :
    (text = none ∧ index = .empty) ∨
      ∃ content tree, text = some (.ok content) ∧ SourceTree.read content = .ok tree ∧
        index = TreeIndex.ofTree r.root.toString tree := by
  rw [indexOf.eq_def] at h
  split at h
  · exact .inl ⟨rfl, (Except.ok.inj h).symm⟩
  · cases h
  · next content =>
      split at h
      · next tree htree => exact .inr ⟨content, tree, rfl, htree, (Except.ok.inj h).symm⟩
      · cases h

/-! ## What leaves the file of the source tree alone -/

theorem treeText?_congr (hsettings : after.settings = r.settings) (hroot : after.root = r.root)
    (h : (after.files other).isFile r.treePath = (r.files disk).isFile r.treePath ∧
      (after.files other).read r.treePath = (r.files disk).read r.treePath) :
    after.treeText? other = r.treeText? disk := by
  have hpath : after.treePath = r.treePath := by
    rw [treePath, treePath, hsettings, hroot]
  rw [treeText?, treeText?, hsettings, hpath, h.1, h.2]

theorem treeText?_putDocuments {uri : Uri} {documents : DocumentTable}
    (hothers : ∀ key, key ≠ uri.key → documents.find? key = r.documents.find? key)
    (hpath : ∀ fileUri, Uri.ofPath? r.treePath = some fileUri → fileUri.key ≠ uri.key) :
    treeText? { r with documents } disk = r.treeText? disk :=
  treeText?_congr rfl rfl (files_congr (document?_of_others hothers hpath) rfl rfl)

theorem treeText?_of_changesOnly {path : Path} (hwell : r.WellFormed)
    (hchange : disk.ChangesOnly other path) (hpath : path ≠ r.treePath) :
    r.treeText? other = r.treeText? disk := by
  obtain ⟨hisFile, hread⟩ := hchange r.treePath (isCanonical_treePath hwell) hpath.symm
  exact treeText?_congr rfl rfl (files_congr rfl hisFile hread)

end Resolver

/-! ## Keeping up -/

namespace Operation

/-- Whether an operation makes a resolver read its source tree again. -/
def Rereads (r : Resolver) : Operation → Prop
  | adoptSettings _ => True
  | fileChanged path =>
    path.normalize = r.treePath ∧ r.treePath.fileName? ≠ some AnalysisConfig.fileName
  | _ => False

/-- Whether an operation is about the file of the source tree, which is not read again: it is about
the document of the file, or the file is taken for a configuration file by its name. -/
def Overlooks (r : Resolver) (operation : Operation) : Prop :=
  (∃ uri fileUri, operation.uri? = some uri ∧ Uri.ofPath? r.treePath = some fileUri ∧
      uri.key = fileUri.key) ∨
    ∃ path, operation = fileChanged path ∧ path.normalize = r.treePath ∧
      r.treePath.fileName? = some AnalysisConfig.fileName

end Operation

namespace Session

/-- One step of a session that is told of all changes and in which nothing fails: an event about a
document, a change of a file on the disk with the notice of it, new settings, or a question. -/
inductive Upkeep : Session → Operation → Session → Prop where
  | document {r : Resolver} {disk : FileSystem} {operation : Operation} {uri : Uri}
      (huri : operation.uri? = some uri) (hvalid : uri.IsValid) :
      Upkeep ⟨r, disk⟩ operation ⟨operation.run r disk, disk⟩
  | fileChanged {r r' : Resolver} {before after : FileSystem} {path : Path}
      (habsolute : path.absolute = true) (hchange : before.ChangesOnly after path.normalize)
      (h : r.didChangeFile after path = (.ok (), r')) :
      Upkeep ⟨r, before⟩ (.fileChanged path) ⟨r', after⟩
  | settings {r r' : Resolver} {disk : FileSystem} {settings : Settings} {loaded : Bool}
      (h : r.adoptSettings disk settings = (.ok loaded, r')) :
      Upkeep ⟨r, disk⟩ (.adoptSettings settings) ⟨r', disk⟩
  | question {r : Resolver} {disk : FileSystem} (query : Query) :
      Upkeep ⟨r, disk⟩ (.ask query) ⟨(query.ask r disk).2, disk⟩

/-- The sessions that can be reached by such steps, with what was read of the file of the source
tree the last time it was read, and with whether the file has been overlooked since. -/
inductive Upkept (start : Session) :
    Option (Except ReadError String) → Prop → Session → Prop where
  | start : Upkept start (start.resolver.treeText? start.disk) False start
  | reread {text : Option (Except ReadError String)} {missed : Prop} {s s' : Session}
      {operation : Operation} (h : Upkept start text missed s) (hs : Upkeep s operation s')
      (hrereads : operation.Rereads s.resolver) :
      Upkept start (s'.resolver.treeText? s'.disk) False s'
  | step {text : Option (Except ReadError String)} {missed : Prop} {s s' : Session}
      {operation : Operation} (h : Upkept start text missed s) (hs : Upkeep s operation s')
      (hkeeps : ¬operation.Rereads s.resolver) :
      Upkept start text (missed ∨ operation.Overlooks s.resolver) s'

variable {start s s' : Session} {operation : Operation} {missed : Prop}
  {text : Option (Except ReadError String)}

open Resolver

/-! ## One step -/

theorem Upkeep.wellFormed (hs : Upkeep s operation s') (h : s.resolver.WellFormed) :
    s'.resolver.WellFormed := by
  cases hs with
  | document huri _ => exact (outcome_run _ _ _).wellFormed h
  | @fileChanged r r' _ after path _ _ hok =>
      have houtcome := outcome_run r after (.fileChanged path)
      rw [Operation.run, hok] at houtcome
      exact houtcome.wellFormed h
  | @settings r r' disk settings _ hok =>
      have houtcome := outcome_run r disk (.adoptSettings settings)
      rw [Operation.run, hok] at houtcome
      exact houtcome.wellFormed h
  | question query => exact (outcome_run _ _ (.ask query)).wellFormed h

theorem indexOf_of_adoptSettings {r r' : Resolver} {disk : FileSystem} {settings : Settings}
    {loaded : Bool} (h : r.adoptSettings disk settings = (.ok loaded, r')) :
    r'.indexOf (r'.treeText? disk) = .ok r'.index := by
  rw [adoptSettings] at h
  exact indexOf_of_reload h

/-- A step that reads the source tree puts the index in force that goes with what it reads. -/
theorem Upkeep.indexOf_of_rereads (hs : Upkeep s operation s')
    (h : operation.Rereads s.resolver) :
    s'.resolver.indexOf (s'.resolver.treeText? s'.disk) = .ok s'.resolver.index := by
  cases hs with
  | @document r disk operation uri huri _ =>
      cases operation with
      | openDocument document => cases h
      | changeDocument uri content version => cases h
      | closeDocument uri => cases h
      | _ => cases huri
  | fileChanged _ _ hok =>
      obtain ⟨htree, hname⟩ := h
      rcases didChangeFile_cases hok with ⟨hconfig, -⟩ | ⟨-, -, loaded, hreload⟩ | ⟨hother, -⟩
      · rw [htree] at hconfig
        exact absurd hconfig hname
      · exact indexOf_of_reload hreload
      · exact absurd htree hother
  | settings hok => exact indexOf_of_adoptSettings hok
  | question query => cases h

/-- What a resolver reads its source tree from, and the index that it has in force. -/
structure SameTree (r after : Resolver) : Prop where
  settings_eq : after.settings = r.settings
  root_eq : after.root = r.root
  index_eq : after.index = r.index

theorem sameTree_putDocuments (r : Resolver) (uri : Uri) (documents : DocumentTable) :
    SameTree r (r.putDocuments uri documents) := by
  rw [putDocuments]
  split
  · exact ⟨rfl, rfl, rfl⟩
  · exact ⟨rfl, rfl, rfl⟩

/-- All other steps leave the index and the place of the source tree as they are. -/
theorem Upkeep.sameTree (hs : Upkeep s operation s') (h : ¬operation.Rereads s.resolver) :
    SameTree s.resolver s'.resolver := by
  cases hs with
  | @document r disk operation uri huri _ =>
      rcases run_of_uri? r disk huri with hrun | ⟨documents, hrun, -⟩
      · rw [hrun]
        exact ⟨rfl, rfl, rfl⟩
      · rw [hrun]
        exact sameTree_putDocuments r uri documents
  | fileChanged _ _ hok =>
      rcases didChangeFile_cases hok with ⟨-, rfl⟩ | ⟨hname, htree, -⟩ | ⟨-, rfl⟩
      · exact ⟨rfl, rfl, rfl⟩
      · rw [htree] at hname
        exact absurd ⟨htree, hname⟩ h
      · exact ⟨rfl, rfl, rfl⟩
  | settings _ => exact absurd trivial h
  | @question r disk query =>
      obtain ⟨configs, hkeeps⟩ := r.ask_keeps disk query
      rw [hkeeps]
      exact ⟨rfl, rfl, rfl⟩

/-- Unless a step overlooks the file of the source tree, the same is read of it as before. -/
theorem Upkeep.treeText?_eq (hs : Upkeep s operation s') (hwell : s.resolver.WellFormed)
    (hkeeps : ¬operation.Rereads s.resolver) (h : ¬operation.Overlooks s.resolver) :
    s'.resolver.treeText? s'.disk = s.resolver.treeText? s.disk := by
  cases hs with
  | @document r disk operation uri huri _ =>
      rcases run_of_uri? r disk huri with hrun | ⟨documents, hrun, hothers⟩
      · simp only [hrun]
      · have hother : treeText? { r with documents } disk = r.treeText? disk :=
          treeText?_putDocuments hothers fun fileUri hfileUri hkey =>
            h (.inl ⟨uri, fileUri, huri, hfileUri, hkey.symm⟩)
        simp only [hrun, putDocuments]
        split
        · exact hother
        · exact hother
  | @fileChanged r r' before after path _ hchange hok =>
      rcases didChangeFile_cases hok with ⟨hconfig, rfl⟩ | ⟨hname, htree, -⟩ | ⟨hother, rfl⟩
      · have hother : path.normalize ≠ r.treePath := fun htree =>
          h (.inr ⟨path, rfl, htree, htree ▸ hconfig⟩)
        exact treeText?_of_changesOnly (r := r) hwell hchange hother
      · rw [htree] at hname
        exact absurd ⟨htree, hname⟩ hkeeps
      · exact treeText?_of_changesOnly hwell hchange hother
  | settings _ => exact absurd trivial hkeeps
  | @question r disk query =>
      obtain ⟨configs, hkeeps⟩ := r.ask_keeps disk query
      simp only [hkeeps]
      rfl

/-! ## Runs -/

theorem Upkept.wellFormed (h : Upkept start text missed s) (hstart : start.resolver.WellFormed) :
    s.resolver.WellFormed := by
  induction h with
  | start => exact hstart
  | reread _ hs _ ih => exact hs.wellFormed ih
  | step _ hs _ ih => exact hs.wellFormed ih

/-- The index in force goes with what was read last. -/
theorem Upkept.indexOf_eq (h : Upkept start text missed s)
    (hstart : start.resolver.indexOf (start.resolver.treeText? start.disk) =
      .ok start.resolver.index) :
    s.resolver.indexOf text = .ok s.resolver.index := by
  induction h with
  | start => exact hstart
  | reread _ hs hrereads _ => exact hs.indexOf_of_rereads hrereads
  | @step text _ s s' _ _ hs hkeeps ih =>
      obtain ⟨hsettings, hroot, hindex⟩ := hs.sameTree hkeeps
      have hsame : s'.resolver.indexOf text = s.resolver.indexOf text := by
        rw [indexOf.eq_def, indexOf.eq_def, treePath, treePath, hsettings, hroot]
      rw [hsame, hindex]
      exact ih

/-- As long as the file has not been overlooked, what was read last would be read again. -/
theorem Upkept.treeText?_eq (h : Upkept start text missed s) (hwell : start.resolver.WellFormed)
    (hmissed : ¬missed) : s.resolver.treeText? s.disk = text := by
  induction h with
  | start => rfl
  | reread _ _ _ _ => rfl
  | step h hs hkeeps ih =>
      rw [hs.treeText?_eq (h.wellFormed hwell) hkeeps fun hoverlooks => hmissed (.inr hoverlooks)]
      exact ih fun hbefore => hmissed (.inl hbefore)

/-- In every run of a new workspace with an absolute root that begins with reading the source tree,
that is told of all changes and in which nothing fails, the index in force is the one that would be
put in force if the tree was read again, unless its file has been overlooked and something else
would be read of it now. The index is that of the tree in the file, or the empty one when the tree
is disabled or absent. -/
theorem freshIndex_of_upkept {home : Option String} {root : String} {defaults : AnalysisConfig}
    {settings : Settings} {disk : FileSystem} {loaded : Bool} {r : Resolver}
    (hroot : (Path.ofString root).absolute = true)
    (hload : (new home (Path.ofString root) defaults settings disk).resolver.reload disk =
      (.ok loaded, r))
    (h : Upkept ⟨r, disk⟩ text missed s)
    (hsame : missed → s.resolver.treeText? s.disk = text) :
    s.resolver.freshIndex s.disk = .ok s.resolver.index ∧
      ((s.resolver.treeText? s.disk = none ∧ s.resolver.index = .empty) ∨
        ∃ content tree, s.resolver.treeText? s.disk = some (.ok content) ∧
          SourceTree.read content = .ok tree ∧
          s.resolver.index = TreeIndex.ofTree s.resolver.root.toString tree) := by
  have hnew := wellFormed_new hroot (Path.isProper_ofString root) home defaults settings disk
  have hwell : r.WellFormed := by
    have houtcome := outcome_run (new home (Path.ofString root) defaults settings disk).resolver
      disk .reload
    simp only [Operation.run, hload] at houtcome
    exact houtcome.wellFormed hnew
  have htext : s.resolver.treeText? s.disk = text := by
    by_cases hmissed : missed
    · exact hsame hmissed
    · exact h.treeText?_eq hwell hmissed
  have hindex := h.indexOf_eq (indexOf_of_reload hload)
  rw [← htext] at hindex
  exact ⟨(freshIndex_eq _ _).trans hindex, indexOf_cases hindex⟩

/-- The text of a source tree with one instance. -/
def folderText : String := "\x7b\"name\":\"p\",\"className\":\"Folder\"\x7d"

/-- The tree that it spells. -/
def folderTree : SourceTree := .mk "p" "Folder" [] [] none

theorem read_folderText : SourceTree.read folderText = .ok folderTree := by rfl

/-- A document over the file of a source tree. -/
def treeDocument : Document :=
  ⟨⟨"file", some "", "/proj/sourcemap.json", none, none⟩, .json, 1, folderText⟩

theorem isValid_treeDocument : treeDocument.uri.IsValid :=
  .read (by rfl : Uri.read "file:///proj/sourcemap.json" = .ok _)

/-- Opening it does not make a resolver read the source tree again. -/
theorem upkeep_treeDocument (r : Resolver) (disk : FileSystem) :
    Upkeep ⟨r, disk⟩ (.openDocument treeDocument) ⟨r.didOpen treeDocument, disk⟩ ∧
      ¬(Operation.openDocument treeDocument).Rereads r :=
  ⟨.document rfl isValid_treeDocument, id⟩

/-- The file of the source tree is written to the disk while its document is open: what is read
again is the document. -/
theorem freshIndex_of_upkept_open :
    let path := Path.ofNames ["proj", "sourcemap.json"]
    let start := new none (Path.ofString "/proj") {} {} MemoryFiles.empty.fileSystem
    let after := (MemoryFiles.empty.insert path (some "[]")).fileSystem
    ∃ loaded r text missed s, (Path.ofString "/proj").absolute = true ∧
      start.resolver.reload start.disk = (.ok loaded, r) ∧
      Upkept ⟨r, start.disk⟩ text missed s ∧ (missed → s.resolver.treeText? s.disk = text) ∧
      s.disk = after ∧ s.resolver.index.size = 1 ∧
      s.resolver.freshIndex s.disk = .ok s.resolver.index ∧
      ((s.resolver.treeText? s.disk = none ∧ s.resolver.index = .empty) ∨
        ∃ content tree, s.resolver.treeText? s.disk = some (.ok content) ∧
          SourceTree.read content = .ok tree ∧
          s.resolver.index = TreeIndex.ofTree s.resolver.root.toString tree) := by
  intro path start after
  have hroot : (Path.ofString "/proj").absolute = true := by decide
  have hload : start.resolver.reload start.disk = (.ok false, start.resolver.clearTree) :=
    reload_of_treeText?_eq_none (by decide +kernel)
  have hchange : start.disk.ChangesOnly after path.normalize :=
    (MemoryFiles.changesAt_insert .empty path (some "[]")).changesOnly
  have hreload : (start.resolver.clearTree.didOpen treeDocument).reload after =
      (.ok true, (start.resolver.clearTree.didOpen treeDocument).setTree folderTree) :=
    reload_of_treeText? (by decide +kernel) read_folderText
  have hchanged : (start.resolver.clearTree.didOpen treeDocument).didChangeFile after path =
      (.ok (), (start.resolver.clearTree.didOpen treeDocument).setTree folderTree) := by
    rw [didChangeFile, if_neg (by decide), if_pos (by decide +kernel), hreload]
    rfl
  obtain ⟨hopen, hkeeps⟩ := upkeep_treeDocument start.resolver.clearTree start.disk
  have hrun := Upkept.reread (.step .start hopen hkeeps)
    (.fileChanged (by rfl) hchange hchanged) ⟨by decide +kernel, by decide +kernel⟩
  exact ⟨_, _, _, _, _, hroot, hload, hrun, False.elim, rfl, by decide +kernel,
    freshIndex_of_upkept hroot hload hrun False.elim⟩

/-- A source tree in a file that is called like a configuration file. -/
def hiddenTree : MemoryFiles :=
  MemoryFiles.empty.insert (Path.ofNames ["proj", ".luaurc"]) (some folderText)

/-- Two runs without an error after which another index would be put in force: the document of the
file of the source tree has been opened, or this file is called like a configuration file and has
been written. -/
theorem freshIndex_of_overlooked :
    let start := new none (Path.ofString "/proj") {} {} MemoryFiles.empty.fileSystem
    let hidden := new none (Path.ofString "/proj") {} { sourcemap := { file := ".luaurc" } }
      MemoryFiles.empty.fileSystem
    ∀ first ∈ [start, hidden], ∃ loaded r text missed s index,
      (Path.ofString "/proj").absolute = true ∧
      first.resolver.reload first.disk = (.ok loaded, r) ∧
      Upkept ⟨r, first.disk⟩ text missed s ∧
      s.resolver.freshIndex s.disk = .ok index ∧ index.size ≠ s.resolver.index.size := by
  intro start hidden first hfirst
  have hroot : (Path.ofString "/proj").absolute = true := by decide
  rcases List.mem_cons.mp hfirst with rfl | hfirst
  · have hload : start.resolver.reload start.disk = (.ok false, start.resolver.clearTree) :=
      reload_of_treeText?_eq_none (by decide +kernel)
    obtain ⟨hopen, hkeeps⟩ := upkeep_treeDocument start.resolver.clearTree start.disk
    have hfresh : (start.resolver.clearTree.didOpen treeDocument).freshIndex start.disk =
        .ok ((start.resolver.clearTree.didOpen treeDocument).setTree folderTree).index := by
      rw [freshIndex, reload_of_treeText? (by decide +kernel) read_folderText]
      rfl
    exact ⟨_, _, _, _, _, _, hroot, hload, .step .start hopen hkeeps, hfresh, by decide +kernel⟩
  · obtain rfl := List.mem_singleton.mp hfirst
    have hload : hidden.resolver.reload hidden.disk = (.ok false, hidden.resolver.clearTree) :=
      reload_of_treeText?_eq_none (by decide +kernel)
    have hchanged : Upkeep ⟨hidden.resolver.clearTree, hidden.disk⟩
        (.fileChanged (Path.ofNames ["proj", ".luaurc"]))
        ⟨hidden.resolver.clearTree.forgetConfigs, hiddenTree.fileSystem⟩ :=
      .fileChanged (by rfl) (MemoryFiles.changesAt_insert .empty _ _).changesOnly (by rfl)
    have hkeeps : ¬(Operation.fileChanged (Path.ofNames ["proj", ".luaurc"])).Rereads
        hidden.resolver.clearTree := fun ⟨_, hname⟩ => hname (by decide +kernel)
    have hfresh : hidden.resolver.clearTree.forgetConfigs.freshIndex hiddenTree.fileSystem =
        .ok (hidden.resolver.clearTree.forgetConfigs.setTree folderTree).index := by
      rw [freshIndex, reload_of_treeText? (by decide +kernel) read_folderText]
      rfl
    exact ⟨_, _, _, _, _, _, hroot, hload, .step .start hchanged hkeeps, hfresh,
      by decide +kernel⟩

end Session

end LuauWorkspace
