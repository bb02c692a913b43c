import LuauWorkspace.FileSystem.Memory
import LuauWorkspace.Proofs.Uri.Read
import LuauWorkspace.Resolver.ModuleSource
import LuauWorkspace.Resolver.Reload
import LuauWorkspace.Resolver.Resolution

/-! # Sessions

A session is a resolver with the disk it works on. It goes on by operations on the resolver and by
changes of the disk, one file at a time, in any order and number. -/

namespace LuauWorkspace

/-! ## Questions -/

/-- A question to a resolver. -/
inductive Query where
  /-- The configuration of a module. -/
  | config (name : String)
  /-- The configuration of a directory. -/
  | directoryConfig (directory : Path)
  | resolve (context : Option String) (require : RequireArgument)
  | source (name : String)
  | document (name : String)
  | nameOfPath (path : Path)
  | nameOfUri (uri : Uri)
  | place (name : String)
  | file (name : String)
  | uri (name : String)
  | displayName (name : String)
  | startDirectory (context : Option String)

/-- What a resolver answers. -/
inductive Answer where
  | config (config : AnalysisConfig)
  | module (found : Option ResolvedModule)
  | source (source : Option ModuleSource)
  | document (document : Option ModuleDocument)
  | name (name : Option String)
  | path (path : Option Path)
  | uri (uri : Option Uri)

/-- The answer to a question, and the resolver after it. -/
def Query.ask (r : Resolver) (disk : FileSystem) : Query → Answer × Resolver
  | config name => (r.config disk name).map .config id
  | directoryConfig directory => (r.configOfDirectory disk directory).map .config id
  | resolve context require => (r.resolve disk context require).map .module id
  | source name => (.source (r.source? disk name), r)
  | document name => (.document (r.document? disk name), r)
  | nameOfPath path => (.name (r.nameOfPath path), r)
  | nameOfUri asked => (.name (r.nameOfUri asked), r)
  | place name => (.name (r.placeOf? name), r)
  | file name => (.path (r.fileOf? name), r)
  | uri name => (.uri (r.uri? name), r)
  | displayName name => (.name (r.displayName name), r)
  | startDirectory context => (.path (r.startDirectory disk context), r)

/-- The resolver after a list of questions. -/
def Query.askAll (r : Resolver) (disk : FileSystem) (queries : List Query) : Resolver :=
  queries.foldl (fun r query => (query.ask r disk).2) r

/-! ## Operations -/

/-- What can be done with a resolver. -/
inductive Operation where
  | openDocument (document : Document)
  | changeDocument (uri : Uri) (content : String) (version : Option Int)
  | closeDocument (uri : Uri)
  /-- A client tells that a file on the disk has changed. -/
  | fileChanged (path : Path)
  | forgetConfigs
  | setTree (tree : SourceTree)
  | readTree (text : String)
  | clearTree
  | reload
  | putSettings (settings : Settings)
  /-- Settings are put in force and the source tree is read again. -/
  | adoptSettings (settings : Settings)
  | setPlugin (info : Json)
  | ask (query : Query)

namespace Operation

/-- The uri of the document that an operation is about. -/
def uri? : Operation → Option Uri
  | openDocument document => some document.uri
  | changeDocument uri _ _ => some uri
  | closeDocument uri => some uri
  | _ => none

/-- The resolver after an operation. One that fails leaves what it has done before it failed. -/
def run (r : Resolver) (disk : FileSystem) : Operation → Resolver
  | openDocument document => r.didOpen document
  | changeDocument uri content version => r.didChange uri content version
  | closeDocument uri => r.didClose uri
  | fileChanged path => (r.didChangeFile disk path).2
  | forgetConfigs => r.forgetConfigs
  | setTree tree => r.setTree tree
  | readTree text => (r.readTree text).2
  | clearTree => r.clearTree
  | reload => (r.reload disk).2
  | putSettings settings => r.putSettings settings
  | adoptSettings settings => (r.adoptSettings disk settings).2
  | setPlugin info => { r with plugin := some info }
  | ask query => (query.ask r disk).2

end Operation

/-! ## Changes of the disk -/

namespace FileSystem

/-- Writing or removing the file at a path leaves all other files as they were. Directories may come
and go with it. -/
def ChangesAt (before after : FileSystem) (path : Path) : Prop :=
  ∀ other, other ≠ path →
    after.isFile other = before.isFile other ∧ after.read other = before.read other

end FileSystem

namespace MemoryFiles

theorem changesAt_insert (memory : MemoryFiles) (path : Path) (content : Option String) :
    memory.fileSystem.ChangesAt (memory.insert path content).fileSystem path := by
  intro other hother
  have hfind : (memory.insert path content).find? other = memory.find? other :=
    (Register.find?_put ..).trans (if_neg hother)
  simp only [fileSystem, hfind, and_self]

end MemoryFiles

/-! ## Runs -/

/-- A resolver with the disk it works on. -/
structure Session where
  resolver : Resolver
  disk : FileSystem

/-- What happens in a session: an operation, or a file on the disk is written or removed. -/
inductive Event where
  | operation (operation : Operation)
  | diskChange (path : Path)

/-- Whether an event writes or removes a configuration file. -/
def Event.changesConfigFile : Event → Prop
  | operation _ => False
  | diskChange path => path.fileName? = some AnalysisConfig.fileName

namespace Session

/-- A session with a new resolver. -/
def new (home : Option String) (root : Path) (defaults : AnalysisConfig) (settings : Settings)
    (disk : FileSystem) : Session :=
  ⟨{ Resolver.create home root settings with defaults }, disk⟩

/-- One step of a session. -/
inductive Step : Session → Event → Session → Prop where
  | operation {r : Resolver} {disk : FileSystem} (operation : Operation)
      (huri : ∀ uri, operation.uri? = some uri → uri.IsValid) :
      Step ⟨r, disk⟩ (.operation operation) ⟨operation.run r disk, disk⟩
  | diskChange {r : Resolver} {before after : FileSystem} {path : Path}
      (h : before.ChangesAt after path) : Step ⟨r, before⟩ (.diskChange path) ⟨r, after⟩

/-- The sessions that can be reached by steps. -/
inductive Reached (start : Session) : Session → Prop where
  | start : Reached start start
  | step {s s' : Session} {event : Event} (h : Reached start s) (hs : Step s event s') :
      Reached start s'

/-- The sessions that can be reached so that no configuration file on the disk has been written or
removed since the start, or since an operation that left no configuration remembered. -/
inductive Settled (start : Session) : Session → Prop where
  | start : Settled start start
  | forgotten {s s' : Session} {operation : Operation} (h : Reached start s)
      (hs : Step s (.operation operation) s') (hnone : s'.resolver.configs = []) :
      Settled start s'
  | step {s s' : Session} {event : Event} (h : Settled start s) (hs : Step s event s')
      (hevent : ¬event.changesConfigFile) : Settled start s'

end Session

end LuauWorkspace
