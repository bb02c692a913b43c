import LuauWorkspace.FileSystem.Basic
import LuauWorkspace.Json.Error
import LuauWorkspace.AnalysisConfig.Basic
import LuauWorkspace.Settings.Basic
import LuauWorkspace.SourceTree.Index
import LuauWorkspace.SourceTree.Reader

/-! # Resolvers

A resolver answers questions about the modules of one workspace. It holds the settings, the index of
the source tree, the open documents and the configurations that have been worked out; the disk is
handed to every question. Configurations are forgotten whenever they may have changed. -/

namespace LuauWorkspace

/-- The state of a workspace. -/
structure Resolver where
  /-- What `~` stands for. -/
  home : Option String
  /-- The root of the workspace, in normal form. -/
  root : Path
  /-- The configuration of modules without a configuration file above them. -/
  defaults : AnalysisConfig := {}
  settings : Settings := {}
  index : TreeIndex := .empty
  /-- What the game engine has sent. -/
  plugin : Option Json := none
  documents : DocumentTable := .empty
  /-- Configurations of directories that have been asked for. -/
  configs : List (Path × AnalysisConfig) := []
deriving Inhabited

/-- Why a workspace cannot be brought up to date. -/
inductive ReloadError where
  | badTree (cause : JsonError)
  | unreadable (file : Path) (cause : ReadError)

/-- The wording of a cause. -/
def ReloadError.message : ReloadError → String
  | badTree cause => s!"Failed to parse sourcemap: {cause.message}"
  | unreadable file _ => s!"Failed to read {file.toString}"

namespace Resolver

/-- A resolver for a root without documents and without a source tree. -/
def create (home : Option String) (root : Path) (settings : Settings) : Resolver :=
  { home, root := root.normalize, settings }

/-- The disk with the open documents over it. -/
def files (r : Resolver) (disk : FileSystem) : FileSystem := disk.withDocuments r.documents

/-- A path in normal form, taken under the root unless it is absolute. -/
def absolute (r : Resolver) (path : Path) : Path := Path.absoluteIn r.root path

/-- The path that a name spells. -/
def path (r : Resolver) (name : String) : Path := r.absolute (Path.ofString name)

/-- Forget the configurations that have been worked out. -/
def forgetConfigs (r : Resolver) : Resolver := { r with configs := [] }

/-- Put settings in force. -/
def putSettings (r : Resolver) (settings : Settings) : Resolver :=
  { r with settings }.forgetConfigs

/-- A line about the state. -/
def summary (r : Resolver) : String :=
  s!"WorkspaceFileResolver \x7b root: {Text.quote r.root.toString}, nodes: {r.index.size}, " ++
    s!"open_documents: {r.documents.size}, cached_configs: {r.configs.length}, .. \x7d"

/-- A line about the open documents. -/
def filesSummary (r : Resolver) : String :=
  s!"WorkspaceFileSystem \x7b buffers: {r.documents.size}, .. \x7d"

/-! ## The source tree -/

/-- Put an index in force. -/
def putIndex (r : Resolver) (index : TreeIndex) : Resolver := { r with index }.forgetConfigs

/-- Put the index of a source tree in force. -/
def setTree (r : Resolver) (tree : SourceTree) : Resolver :=
  r.putIndex (TreeIndex.ofTree r.root.toString tree)

/-- Take the source tree away. -/
def clearTree (r : Resolver) : Resolver := r.putIndex .empty

/-- Read a source tree and put its index in force. -/
def readTree (r : Resolver) (text : String) : Except ReloadError Unit × Resolver :=
  match SourceTree.read text with
  | .ok tree => (.ok (), r.setTree tree)
  | .error cause => (.error (.badTree cause), r)

/-! ## Open documents -/

/-- Whether a uri names a configuration file. -/
def isConfigUri (uri : Uri) : Bool :=
  (uri.filePath?.bind fun text => (Path.ofString text).fileName?) == some AnalysisConfig.fileName

/-- Put documents in force after an event that concerns the document of a uri. -/
def putDocuments (r : Resolver) (uri : Uri) (documents : DocumentTable) : Resolver :=
  let r := { r with documents }
  if isConfigUri uri then r.forgetConfigs else r

/-- Open a document. A client that opens it twice is ignored. -/
def didOpen (r : Resolver) (document : Document) : Resolver :=
  match r.documents.add document with
  | (.ok (), documents) => r.putDocuments document.uri documents
  | (.error _, documents) => { r with documents }

/-- Replace the text of an open document. A client that changes another one is ignored. -/
def didChange (r : Resolver) (uri : Uri) (content : String) (version : Option Int) :
    Resolver :=
  match r.documents.change uri content version with
  | (.ok (), documents) => r.putDocuments uri documents
  | (.error _, documents) => { r with documents }

/-- Close a document. A client that closes one that is not open is ignored. -/
def didClose (r : Resolver) (uri : Uri) : Resolver :=
  match r.documents.close uri with
  | (some _, documents) => r.putDocuments uri documents
  | (none, documents) => { r with documents }

end Resolver

end LuauWorkspace
