import LuauWorkspace.Proofs.Resolver.Refresh

/-! # Failing operations

An operation that fails leaves a resolver as it was, except that new settings stay in force when the
source tree that they name cannot be read. So the index in force is always that of the source tree
that was put in force last, and nothing depends on trees before it or on those that were refused. -/

namespace LuauWorkspace

namespace Resolver

variable {r after : Resolver} {disk : FileSystem} {tree? : Option SourceTree}

theorem Outcome.root_eq {operation : Operation} (h : r.Outcome disk operation after) :
    after.root = r.root := by
  cases h with
  | unchanged => rfl
  | @documents _ uri documents => exact (Session.sameTree_putDocuments r uri documents).root_eq
  | forgotten hindex => rfl
  | plugin => rfl
  | @asked query =>
      obtain ⟨configs, hkeeps⟩ := r.ask_keeps disk query
      rw [hkeeps]

/-! ## Reading the source tree again -/

/-- Why reading the source tree again fails: its file cannot be read, or what it holds spells no
tree. -/
inductive Unloadable (r : Resolver) (disk : FileSystem) : ReloadError → Prop where
  | unreadable {cause : ReadError} (htext : r.treeText? disk = some (.error cause)) :
      Unloadable r disk (.unreadable r.treePath cause)
  | badTree {text : String} {cause : JsonError} (htext : r.treeText? disk = some (.ok text))
      (htree : SourceTree.read text = .error cause) : Unloadable r disk (.badTree cause)

/-- What reading the source tree again finds: a tree, or none when it is disabled or absent. -/
inductive Finds (r : Resolver) (disk : FileSystem) : Option SourceTree → Prop where
  | absent (htext : r.treeText? disk = none) : Finds r disk none
  | tree {text : String} {tree : SourceTree} (htext : r.treeText? disk = some (.ok text))
      (htree : SourceTree.read text = .ok tree) : Finds r disk (some tree)

/-- Put a source tree in force, or take it away. -/
def putTree (r : Resolver) : Option SourceTree → Resolver
  | some tree => r.setTree tree
  | none => r.clearTree

theorem reload_of_finds (h : r.Finds disk tree?) :
    r.reload disk = (.ok tree?.isSome, r.putTree tree?) := by
  cases h with
  | absent htext => exact reload_of_treeText?_eq_none htext
  | tree htext htree => exact reload_of_treeText? htext htree

theorem reload_of_unloadable {cause : ReloadError} (h : r.Unloadable disk cause) :
    r.reload disk = (.error cause, r) := by
  cases h with
  | unreadable htext => exact reload_of_unreadable htext
  | badTree htext htree => exact reload_of_badTree htext htree

/-- Reading the source tree again finds something or fails. -/
theorem exists_finds_or_unloadable (r : Resolver) (disk : FileSystem) :
    (∃ tree?, r.Finds disk tree?) ∨ ∃ cause, r.Unloadable disk cause := by
  cases htext : r.treeText? disk with
  | none => exact .inl ⟨none, .absent htext⟩
  | some read =>
      cases read with
      | error cause => exact .inr ⟨_, .unreadable htext⟩
      | ok text =>
          cases htree : SourceTree.read text with
          | ok tree => exact .inl ⟨some tree, .tree htext htree⟩
          | error cause => exact .inr ⟨_, .badTree htext htree⟩

theorem reload_eq_error_iff {cause : ReloadError} :
    (r.reload disk).1 = .error cause ↔ r.Unloadable disk cause := by
  constructor
  · intro h
    rcases exists_finds_or_unloadable r disk with ⟨tree?, hfinds⟩ | ⟨cause', hbad⟩
    · rw [reload_of_finds hfinds] at h
      cases h
    · rw [reload_of_unloadable hbad] at h
      exact Except.error.inj h ▸ hbad
  · intro h
    rw [reload_of_unloadable h]

end Resolver

open Resolver

/-! ## One operation -/

namespace Operation

variable {r : Resolver} {disk : FileSystem} {operation : Operation} {tree? : Option SourceTree}

/-- An operation reports that it has failed. -/
inductive Fails (r : Resolver) (disk : FileSystem) : Operation → Prop where
  | openDocument {document : Document} {cause : DocumentError}
      (h : (r.documents.add document).1 = .error cause) : Fails r disk (.openDocument document)
  | changeDocument {uri : Uri} {content : String} {version : Option Int} {cause : DocumentError}
      (h : (r.documents.change uri content version).1 = .error cause) :
      Fails r disk (.changeDocument uri content version)
  | closeDocument {uri : Uri} (h : (r.documents.close uri).1 = none) :
      Fails r disk (.closeDocument uri)
  | readTree {text : String} {cause : ReloadError} (h : (r.readTree text).1 = .error cause) :
      Fails r disk (.readTree text)
  | reload {cause : ReloadError} (h : (r.reload disk).1 = .error cause) : Fails r disk .reload
  | fileChanged {path : Path} {cause : ReloadError}
      (h : (r.didChangeFile disk path).1 = .error cause) : Fails r disk (.fileChanged path)
  | adoptSettings {settings : Settings} {cause : ReloadError}
      (h : (r.adoptSettings disk settings).1 = .error cause) :
      Fails r disk (.adoptSettings settings)

/-- What makes an operation fail: a document is opened twice, one that is not open is changed or
closed, a text spells no source tree, or the source tree cannot be read again. -/
def IsRefused (r : Resolver) (disk : FileSystem) : Operation → Prop
  | openDocument document => ∃ held, r.documents.get? document.uri = some held
  | changeDocument uri _ _ => r.documents.get? uri = none
  | closeDocument uri => r.documents.get? uri = none
  | readTree text => ∃ cause, SourceTree.read text = .error cause
  | reload => ∃ cause, r.Unloadable disk cause
  | fileChanged path => path.normalize.fileName? ≠ some AnalysisConfig.fileName ∧
      path.normalize = r.treePath ∧ ∃ cause, r.Unloadable disk cause
  | adoptSettings settings => ∃ cause, (r.putSettings settings).Unloadable disk cause
  | _ => False

/-- An operation succeeds in putting a source tree in force or in taking it away. -/
inductive Loads (r : Resolver) (disk : FileSystem) : Operation → Option SourceTree → Prop where
  | setTree (tree : SourceTree) : Loads r disk (.setTree tree) (some tree)
  | readTree {text : String} {tree : SourceTree} (h : SourceTree.read text = .ok tree) :
      Loads r disk (.readTree text) (some tree)
  | clearTree : Loads r disk .clearTree none
  | reload {tree? : Option SourceTree} (h : r.Finds disk tree?) : Loads r disk .reload tree?
  | fileChanged {path : Path} {tree? : Option SourceTree}
      (hname : path.normalize.fileName? ≠ some AnalysisConfig.fileName)
      (hpath : path.normalize = r.treePath) (h : r.Finds disk tree?) :
      Loads r disk (.fileChanged path) tree?
  | adoptSettings {settings : Settings} {tree? : Option SourceTree}
      (h : (r.putSettings settings).Finds disk tree?) :
      Loads r disk (.adoptSettings settings) tree?

/-- What an operation has done before it reads a source tree. -/
def prepared (r : Resolver) : Operation → Resolver
  | adoptSettings settings => { r with settings, configs := [] }
  | _ => r

theorem fails_fileChanged_iff {path : Path} : (fileChanged path).Fails r disk ↔
    path.normalize.fileName? ≠ some AnalysisConfig.fileName ∧ path.normalize = r.treePath ∧
      ∃ cause, r.Unloadable disk cause := by
  constructor
  · intro hfails
    cases hfails with
    | fileChanged h =>
        rcases didChangeFile_eq r disk path with ⟨-, heq⟩ | ⟨hname, htree, heq⟩ | ⟨-, heq⟩
        · rw [heq] at h
          cases h
        · rw [heq] at h
          cases houtcome : (r.reload disk).1 with
          | ok loaded =>
              rw [houtcome] at h
              cases h
          | error cause => exact ⟨hname, htree, cause, reload_eq_error_iff.mp houtcome⟩
        · rw [heq] at h
          cases h
  · rintro ⟨hname, htree, cause, hbad⟩
    rw [treePath] at htree
    refine @Fails.fileChanged r disk path cause ?_
    rw [didChangeFile, if_neg hname, if_pos htree, reload_of_unloadable hbad]
    rfl

theorem fails_iff : operation.Fails r disk ↔ operation.IsRefused r disk := by
  constructor
  · intro h
    cases h with
    | @openDocument document _ h =>
        rw [DocumentTable.add] at h
        split at h
        · next hopen => exact Option.isSome_iff_exists.mp hopen
        · cases h
    | @changeDocument uri _ _ _ h =>
        rw [DocumentTable.change] at h
        split at h
        · cases h
        · next hclosed => exact Option.not_isSome_iff_eq_none.mp hclosed
    | closeDocument h => exact h
    | @readTree text _ h =>
        rw [Resolver.readTree] at h
        cases hread : SourceTree.read text with
        | ok tree =>
            rw [hread] at h
            cases h
        | error cause => exact ⟨cause, hread⟩
    | reload h => exact ⟨_, reload_eq_error_iff.mp h⟩
    | fileChanged h => exact fails_fileChanged_iff.mp (.fileChanged h)
    | adoptSettings h => exact ⟨_, reload_eq_error_iff.mp h⟩
  · intro h
    cases operation with
    | openDocument document =>
        obtain ⟨held, hopen⟩ := h
        refine @Fails.openDocument r disk document (.alreadyOpen document.uri.key) ?_
        rw [DocumentTable.add, hopen]
        rfl
    | changeDocument uri content version =>
        refine @Fails.changeDocument r disk uri content version (.notOpen uri.key) ?_
        have hclosed : r.documents.get? uri = none := h
        rw [DocumentTable.change, hclosed]
        rfl
    | closeDocument uri => exact .closeDocument h
    | readTree text =>
        obtain ⟨cause, hread⟩ := h
        refine @Fails.readTree r disk text (.badTree cause) ?_
        rw [Resolver.readTree, hread]
    | reload =>
        obtain ⟨cause, hbad⟩ := h
        exact .reload (reload_eq_error_iff.mpr hbad)
    | fileChanged path => exact fails_fileChanged_iff.mpr h
    | adoptSettings settings =>
        obtain ⟨cause, hbad⟩ := h
        exact .adoptSettings (reload_eq_error_iff.mpr hbad)
    | _ => exact h.elim

/-- What has been done before an operation fails is all that it leaves behind. -/
theorem run_of_fails (h : operation.Fails r disk) :
    operation.run r disk = operation.prepared r := by
  cases h with
  | openDocument h => exact didOpen_of_error h
  | changeDocument h => exact didChange_of_error h
  | closeDocument h => exact didClose_of_none h
  | readTree h => exact readTree_of_error h
  | reload h => exact reload_of_error h
  | fileChanged h => exact didChangeFile_of_error h
  | adoptSettings h => exact reload_of_error h

/-- An operation that fails changes nothing unless it puts settings in force. -/
theorem Fails.run_eq (h : operation.Fails r disk)
    (hsettings : ∀ settings, operation ≠ .adoptSettings settings) : operation.run r disk = r := by
  rw [run_of_fails h]
  cases operation with
  | adoptSettings settings => exact absurd rfl (hsettings settings)
  | _ => rfl

theorem run_of_loads (h : operation.Loads r disk tree?) :
    operation.run r disk = (operation.prepared r).putTree tree? := by
  cases h with
  | setTree tree => rfl
  | readTree h => simp only [run, prepared, Resolver.readTree, h, putTree]
  | clearTree => rfl
  | reload h => simp only [run, prepared, reload_of_finds h]
  | fileChanged hname hpath h =>
      rw [treePath] at hpath
      simp only [run, prepared, didChangeFile, if_neg hname, if_pos hpath, reload_of_finds h]
  | adoptSettings h =>
      rw [run, Resolver.adoptSettings, reload_of_finds h]
      rfl

theorem root_prepared (r : Resolver) (operation : Operation) :
    (operation.prepared r).root = r.root := by
  cases operation with
  | adoptSettings settings => rfl
  | _ => rfl

theorem index_prepared (r : Resolver) (operation : Operation) :
    (operation.prepared r).index = r.index := by
  cases operation with
  | adoptSettings settings => rfl
  | _ => rfl

/-- An operation that puts no source tree in force leaves the index as it is. -/
theorem index_run_of_not_loads (h : ∀ tree?, ¬operation.Loads r disk tree?) :
    (operation.run r disk).index = r.index := by
  have hfails : operation.Fails r disk → (operation.run r disk).index = r.index := fun hfails => by
    rw [run_of_fails hfails, index_prepared]
  have hdocument : ∀ uri, operation.uri? = some uri → (operation.run r disk).index = r.index := by
    intro uri huri
    rcases run_of_uri? r disk huri with hrun | ⟨documents, hrun, -⟩
    · rw [hrun]
    · rw [hrun, (Session.sameTree_putDocuments r uri documents).index_eq]
  cases operation with
  | openDocument document => exact hdocument _ rfl
  | changeDocument uri content version => exact hdocument _ rfl
  | closeDocument uri => exact hdocument _ rfl
  | fileChanged path =>
      rcases didChangeFile_eq r disk path with ⟨-, heq⟩ | ⟨hname, hpath, -⟩ | ⟨-, heq⟩
      · rw [run, heq]
        rfl
      · rcases exists_finds_or_unloadable r disk with ⟨tree?, hfinds⟩ | hbad
        · exact absurd (.fileChanged hname hpath hfinds) (h tree?)
        · exact hfails (fails_iff.mpr ⟨hname, hpath, hbad⟩)
      · rw [run, heq]
  | forgetConfigs => rfl
  | setTree tree => exact absurd (.setTree tree) (h _)
  | readTree text =>
      cases hread : SourceTree.read text with
      | ok tree => exact absurd (.readTree hread) (h _)
      | error cause => exact hfails (fails_iff.mpr ⟨cause, hread⟩)
  | clearTree => exact absurd .clearTree (h _)
  | reload =>
      rcases exists_finds_or_unloadable r disk with ⟨tree?, hfinds⟩ | hbad
      · exact absurd (.reload hfinds) (h tree?)
      · exact hfails (fails_iff.mpr hbad)
  | putSettings settings => rfl
  | adoptSettings settings =>
      rcases exists_finds_or_unloadable (r.putSettings settings) disk with ⟨tree?, hfinds⟩ | hbad
      · exact absurd (.adoptSettings hfinds) (h tree?)
      · exact hfails (fails_iff.mpr hbad)
  | setPlugin info => rfl
  | ask query =>
      obtain ⟨configs, hkeeps⟩ := r.ask_keeps disk query
      rw [run, hkeeps]

end Operation

/-! ## All but the source tree -/

namespace Resolver

/-- A resolver without its source tree and without the configurations that it remembers. -/
def withoutTree (r : Resolver) : Resolver := { r with index := .empty, configs := [] }

/-- What is put in force with a source tree depends on nothing that is forgotten then. -/
theorem putTree_withoutTree (r : Resolver) (tree? : Option SourceTree) :
    r.withoutTree.putTree tree? = r.putTree tree? := by
  cases tree? with
  | none => rfl
  | some tree => rfl

theorem withoutTree_reload (r : Resolver) (disk : FileSystem) :
    (r.reload disk).2.withoutTree = r.withoutTree := by
  cases houtcome : (r.reload disk).1 with
  | ok loaded =>
      rcases reload_cases houtcome with heq | ⟨tree, heq⟩
      · rw [heq]
        rfl
      · rw [heq]
        rfl
  | error cause => rw [reload_of_error houtcome]

theorem withoutTree_putDocuments (r : Resolver) (uri : Uri) (documents : DocumentTable) :
    (r.putDocuments uri documents).withoutTree = { r with documents }.withoutTree := by
  rw [putDocuments]
  split
  · rfl
  · rfl

end Resolver

namespace Operation

/-- Whether an operation concerns the source tree and what is remembered, and nothing else. -/
def TreeOnly : Operation → Prop
  | fileChanged _ | forgetConfigs | setTree _ | readTree _ | clearTree | reload | ask _ => True
  | _ => False

theorem withoutTree_run_of_treeOnly {operation : Operation} (h : operation.TreeOnly)
    (r : Resolver) (disk : FileSystem) :
    (operation.run r disk).withoutTree = r.withoutTree := by
  cases operation with
  | fileChanged path =>
      rcases didChangeFile_eq r disk path with ⟨-, heq⟩ | ⟨-, -, heq⟩ | ⟨-, heq⟩
      · rw [run, heq]
        rfl
      · rw [run, heq]
        exact withoutTree_reload r disk
      · rw [run, heq]
  | forgetConfigs => rfl
  | setTree tree => rfl
  | readTree text =>
      rw [run, Resolver.readTree]
      cases SourceTree.read text with
      | ok tree => rfl
      | error cause => rfl
  | clearTree => rfl
  | reload => exact withoutTree_reload r disk
  | ask query =>
      obtain ⟨configs, hkeeps⟩ := r.ask_keeps disk query
      rw [run, hkeeps]
      rfl
  | _ => exact h.elim

/-- What an operation does to all but the source tree does not depend on the source tree. -/
theorem withoutTree_run (r : Resolver) (disk : FileSystem) (operation : Operation) :
    (operation.run r disk).withoutTree = (operation.run r.withoutTree disk).withoutTree := by
  have hdocuments : r.withoutTree.documents = r.documents := rfl
  have hadopt : ∀ (r : Resolver) (settings : Settings),
      ((adoptSettings settings).run r disk).withoutTree = { r with settings }.withoutTree := by
    intro r settings
    exact withoutTree_reload (r.putSettings settings) disk
  by_cases honly : operation.TreeOnly
  · rw [withoutTree_run_of_treeOnly honly, withoutTree_run_of_treeOnly honly]
    rfl
  · cases operation with
    | openDocument document =>
        rw [run, run, didOpen, didOpen, hdocuments]
        split
        · rw [withoutTree_putDocuments, withoutTree_putDocuments]
          rfl
        · rfl
    | changeDocument uri content version =>
        rw [run, run, didChange, didChange, hdocuments]
        split
        · rw [withoutTree_putDocuments, withoutTree_putDocuments]
          rfl
        · rfl
    | closeDocument uri =>
        rw [run, run, didClose, didClose, hdocuments]
        split
        · rw [withoutTree_putDocuments, withoutTree_putDocuments]
          rfl
        · rfl
    | putSettings settings => rfl
    | adoptSettings settings =>
        rw [hadopt, hadopt]
        rfl
    | setPlugin info => rfl
    | _ => exact absurd trivial honly

theorem withoutTree_run_congr {r other : Resolver} (h : r.withoutTree = other.withoutTree)
    (disk : FileSystem) (operation : Operation) :
    (operation.run r disk).withoutTree = (operation.run other disk).withoutTree := by
  rw [withoutTree_run r, withoutTree_run other, h]

end Operation

namespace Resolver

variable {r other : Resolver} {disk : FileSystem} {tree? : Option SourceTree}

theorem Finds.of_withoutTree_eq (hfinds : r.Finds disk tree?)
    (h : r.withoutTree = other.withoutTree) : other.Finds disk tree? := by
  have htext : other.treeText? disk = r.treeText? disk := by
    have htree : ∀ r : Resolver, r.withoutTree.treeText? disk = r.treeText? disk := fun _ => rfl
    rw [← htree other, ← h, htree]
  cases hfinds with
  | absent hnone => exact .absent (htext.trans hnone)
  | tree hread htree => exact .tree (htext.trans hread) htree

end Resolver

namespace Operation

variable {r other : Resolver} {disk : FileSystem} {operation : Operation}
  {tree? : Option SourceTree}

theorem Loads.of_withoutTree_eq (hloads : operation.Loads r disk tree?)
    (h : r.withoutTree = other.withoutTree) : operation.Loads other disk tree? := by
  cases hloads with
  | setTree tree => exact .setTree tree
  | readTree hread => exact .readTree hread
  | clearTree => exact .clearTree
  | reload hfinds => exact .reload (hfinds.of_withoutTree_eq h)
  | fileChanged hname hpath hfinds =>
      have htree : other.treePath = r.treePath := by
        have htree : ∀ r : Resolver, r.withoutTree.treePath = r.treePath := fun _ => rfl
        rw [← htree other, ← h, htree]
      exact .fileChanged hname (hpath.trans htree.symm) (hfinds.of_withoutTree_eq h)
  | adoptSettings hfinds =>
      have hput : ∀ (r : Resolver) (settings : Settings), (r.putSettings settings).withoutTree =
          r.withoutTree.putSettings settings := fun _ _ => rfl
      exact .adoptSettings (hfinds.of_withoutTree_eq (by rw [hput, hput, h]))

/-- Putting a source tree in force makes resolvers equal that differ in their source trees. -/
theorem Loads.run_eq (hloads : operation.Loads r disk tree?)
    (h : r.withoutTree = other.withoutTree) : operation.run r disk = operation.run other disk := by
  have hprepared : ∀ r : Resolver, (operation.prepared r).withoutTree =
      (operation.prepared r.withoutTree).withoutTree := by
    intro r
    cases operation with
    | adoptSettings settings => rfl
    | _ => rfl
  rw [run_of_loads hloads, run_of_loads (hloads.of_withoutTree_eq h), ← putTree_withoutTree,
    hprepared, h, ← hprepared, putTree_withoutTree]

end Operation

/-! ## Runs -/

namespace Session

/-- The sessions that can be reached by steps, with the source tree that the last operation of those
that succeeded in it has put in force; none if there is no such operation, or if the last one has
taken the tree away. -/
inductive Recorded (start : Session) : Option SourceTree → Session → Prop where
  | start : Recorded start none start
  | loaded {last tree? : Option SourceTree} {s s' : Session} {operation : Operation}
      (h : Recorded start last s) (hs : Step s (.operation operation) s')
      (hloads : operation.Loads s.resolver s.disk tree?) : Recorded start tree? s'
  | step {last : Option SourceTree} {s s' : Session} {event : Event}
      (h : Recorded start last s) (hs : Step s event s')
      (hkeeps : ∀ operation tree?, event = .operation operation →
        ¬operation.Loads s.resolver s.disk tree?) : Recorded start last s'

/-- Two runs that differ in source trees and in failing operations: both take the same step, or one
of them goes on alone, by an operation that fails without putting settings in force or by one that
concerns nothing but the source tree. The mark tells whether what was put in force last has been the
same in both, with the same steps since. -/
inductive Parallel (start : Session) : Prop → Session → Session → Prop where
  | start : Parallel start True start start
  | swap {same : Prop} {s t : Session} (h : Parallel start same s t) : Parallel start same t s
  | step {same : Prop} {s t s' t' : Session} {event : Event} (h : Parallel start same s t)
      (hs : Step s event s') (ht : Step t event t') (hdisk : s'.disk = t'.disk) :
      Parallel start (same ∨ ∃ operation tree?, event = .operation operation ∧
        operation.Loads s.resolver s.disk tree?) s' t'
  | failed {same : Prop} {s t s' : Session} {operation : Operation} (h : Parallel start same s t)
      (hs : Step s (.operation operation) s') (hfails : operation.Fails s.resolver s.disk)
      (hsettings : ∀ settings, operation ≠ .adoptSettings settings) : Parallel start same s' t
  | given {same : Prop} {s t s' : Session} {operation : Operation} (h : Parallel start same s t)
      (hs : Step s (.operation operation) s') (honly : operation.TreeOnly) :
      Parallel start False s' t

variable {start s t : Session} {last : Option SourceTree} {same : Prop}

/-- Every run has a source tree that was put in force last, or none. -/
theorem Reached.exists_recorded (h : Reached start s) : ∃ last, Recorded start last s := by
  induction h with
  | start => exact ⟨none, .start⟩
  | @step s s' event _ hs ih =>
      obtain ⟨last, hlast⟩ := ih
      by_cases hloads : ∃ operation tree?, event = .operation operation ∧
          operation.Loads s.resolver s.disk tree?
      · obtain ⟨operation, tree?, rfl, hloads⟩ := hloads
        exact ⟨tree?, .loaded hlast hs hloads⟩
      · exact ⟨last, .step hlast hs fun operation tree? hevent hloaded =>
          hloads ⟨operation, tree?, hevent, hloaded⟩⟩

theorem Recorded.root_eq (h : Recorded start last s) :
    s.resolver.root = start.resolver.root := by
  have hstep : ∀ {s s' : Session} {event : Event}, Step s event s' →
      s'.resolver.root = s.resolver.root := by
    intro s s' event hs
    cases hs with
    | operation operation huri => exact (outcome_run _ _ operation).root_eq
    | diskChange hchange => rfl
  induction h with
  | start => rfl
  | loaded _ hs _ ih => exact (hstep hs).trans ih
  | step _ hs _ ih => exact (hstep hs).trans ih

/-- The index that goes with a source tree. -/
def indexOfLast (root : Path) : Option SourceTree → TreeIndex
  | some tree => TreeIndex.ofTree root.toString tree
  | none => .empty

theorem index_putTree (r : Resolver) (tree? : Option SourceTree) :
    (r.putTree tree?).index = indexOfLast r.root tree? := by
  cases tree? with
  | none => rfl
  | some tree => rfl

/-- The index in force is that of the source tree that was put in force last. -/
theorem Recorded.index_eq (h : Recorded start last s) (hstart : start.resolver.index = .empty) :
    s.resolver.index = indexOfLast start.resolver.root last := by
  induction h with
  | start => exact hstart
  | @loaded _ tree? s s' operation h hs hloads _ =>
      cases hs with
      | operation _ huri =>
          rw [Operation.run_of_loads hloads, index_putTree, Operation.root_prepared, h.root_eq]
  | step _ hs hkeeps ih =>
      cases hs with
      | operation operation huri =>
          rw [Operation.index_run_of_not_loads fun tree? => hkeeps operation tree? rfl]
          exact ih
      | diskChange hchange => exact ih

/-- Runs that differ in source trees and in failing operations differ in nothing else. -/
theorem Parallel.agree (h : Parallel start same s t) :
    s.disk = t.disk ∧ s.resolver.withoutTree = t.resolver.withoutTree := by
  induction h with
  | start => exact ⟨rfl, rfl⟩
  | swap _ ih => exact ⟨ih.1.symm, ih.2.symm⟩
  | @step _ s t _ _ _ _ hs ht hdisk ih =>
      obtain ⟨hdisks, hrest⟩ := ih
      refine ⟨hdisk, ?_⟩
      cases hs with
      | operation operation huri =>
          cases ht with
          | operation _ _ =>
              obtain rfl := hdisks
              exact Operation.withoutTree_run_congr hrest _ operation
      | diskChange hchange =>
          cases ht with
          | diskChange _ => exact hrest
  | failed _ hs hfails hsettings ih =>
      cases hs with
      | operation operation huri =>
          rw [hfails.run_eq hsettings]
          exact ih
  | given _ hs honly ih =>
      cases hs with
      | operation operation huri =>
          exact ⟨ih.1, (Operation.withoutTree_run_of_treeOnly honly _ _).trans ih.2⟩

/-- Once the same source tree has been put in force in both, such runs are in the same state. -/
theorem Parallel.eq (h : Parallel start same s t) (hsame : same) : s = t := by
  induction h with
  | start => rfl
  | swap _ ih => exact (ih hsame).symm
  | @step _ s t _ _ _ h hs ht hdisk ih =>
      cases hs with
      | operation operation huri =>
          cases ht with
          | operation _ _ =>
              obtain rfl := hdisk
              rcases hsame with hsame | ⟨_, tree?, hevent, hloads⟩
              · rw [(Session.mk.inj (ih hsame)).1]
              · obtain rfl := Event.operation.inj hevent
                rw [hloads.run_eq h.agree.2]
      | diskChange hchange =>
          cases ht with
          | diskChange _ =>
              obtain rfl := hdisk
              rcases hsame with hsame | ⟨_, _, hevent, _⟩
              · rw [(Session.mk.inj (ih hsame)).1]
              · cases hevent
  | failed _ hs hfails hsettings ih =>
      cases hs with
      | operation operation huri =>
          rw [hfails.run_eq hsettings]
          exact ih hsame
  | given => exact hsame.elim

/-- What failing operations and former source trees leave behind in a session: nothing but the
settings that were to be put in force. -/
structure Intact (start s : Session) : Prop where
  failed : ∀ operation : Operation, operation.Fails s.resolver s.disk →
    (∀ settings, operation ≠ .adoptSettings settings) →
      operation.run s.resolver s.disk = s.resolver
  adopted : ∀ settings, (Operation.adoptSettings settings).Fails s.resolver s.disk →
    (Operation.adoptSettings settings).run s.resolver s.disk =
      { s.resolver with settings, configs := [] }
  refused : ∀ operation : Operation,
    operation.Fails s.resolver s.disk ↔ operation.IsRefused s.resolver s.disk
  cause : ∀ cause,
    (s.resolver.reload s.disk).1 = .error cause ↔ s.resolver.Unloadable s.disk cause
  recorded : ∃ last, Recorded start last s
  index : ∀ last, Recorded start last s →
    s.resolver.index = match last with
      | some tree => TreeIndex.ofTree s.resolver.root.toString tree
      | none => .empty
  independent : ∀ same t, Parallel start same s t → same → s = t

/-- In every run of a new workspace operations that fail leave it intact, the index is that of the
source tree that was put in force last, and nothing else of source trees is left. -/
theorem intact_of_reached {home : Option String} {root : Path} {defaults : AnalysisConfig}
    {settings : Settings} {disk : FileSystem}
    (h : Reached (new home root defaults settings disk) s) :
    Intact (new home root defaults settings disk) s where
  failed _ hfails hsettings := hfails.run_eq hsettings
  adopted _ hfails := Operation.run_of_fails hfails
  refused _ := Operation.fails_iff
  cause _ := reload_eq_error_iff
  recorded := h.exists_recorded
  index last hlast := by
    rw [hlast.index_eq rfl, hlast.root_eq]
    cases last with
    | none => rfl
    | some tree => rfl
  independent _ _ hparallel hsame := hparallel.eq hsame

/-- A file of a source tree that holds none. -/
def brokenTree : MemoryFiles :=
  MemoryFiles.empty.insert (Path.ofNames ["proj", "sourcemap.json"]) (some "[]")

/-- A tree is put in force and cannot be read again. A run in which another tree has been in force
before it is in the same state. -/
theorem intact_of_reached_brokenTree :
    let start := new none (Path.ofString "/proj") {} {} brokenTree.fileSystem
    ∃ s same t, Reached start s ∧ Recorded start (some folderTree) s ∧
      Operation.reload.Fails s.resolver s.disk ∧ Parallel start same s t ∧ same ∧
      Intact start s := by
  intro start
  have hstep : ∀ (r : Resolver) (operation : Operation), operation.uri? = none →
      Step ⟨r, start.disk⟩ (.operation operation) ⟨operation.run r start.disk, start.disk⟩ :=
    fun r operation hnone => .operation operation fun uri huri => by rw [hnone] at huri; cases huri
  have hread : ∀ r disk, (Operation.readTree folderText).Loads r disk (some folderTree) :=
    fun _ _ => .readTree read_folderText
  let loaded := (Operation.readTree folderText).run start.resolver start.disk
  obtain ⟨cause, hbad⟩ : ∃ cause, SourceTree.read "[]" = .error cause := ⟨_, rfl⟩
  have htext : loaded.treeText? start.disk = some (.ok "[]") := by decide +kernel
  have hfails : Operation.reload.Fails loaded start.disk :=
    .reload (reload_eq_error_iff.mpr (.badTree htext hbad))
  have hreached : Reached start ⟨loaded, start.disk⟩ := .step .start (hstep _ _ rfl)
  have hother := Parallel.given (@Parallel.start start)
    (hstep start.resolver (.setTree (.mk "q" "Folder" [] [] none)) rfl) trivial
  have hboth := Parallel.step hother (hstep _ (.readTree folderText) rfl)
    (hstep start.resolver (.readTree folderText) rfl) rfl
  have hfailed := Parallel.failed (.swap hboth) (hstep loaded .reload rfl) hfails (by simp)
  rw [hfails.run_eq (by simp)] at hfailed
  exact ⟨_, _, _, hreached, .loaded .start (hstep _ _ rfl) (hread _ _), hfails, hfailed,
    .inr ⟨_, _, rfl, hread _ _⟩, intact_of_reached hreached⟩

end Session

end LuauWorkspace
