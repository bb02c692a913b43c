import LuauWorkspace.Resolver.Basic

/-! # Keeping up with changes

The source tree is read again when the settings change or when its file does. An operation that may
fail hands on the state that it leaves behind, also when it fails. -/

namespace LuauWorkspace.Resolver

/-- Read the source tree that the settings name, and tell whether there is one. A tree that is
disabled or absent is taken away. -/
def reload (r : Resolver) (disk : FileSystem) : Except ReloadError Bool × Resolver :=
  if r.settings.sourcemap.enabled = false then (.ok false, r.clearTree)
  else
    let file := r.settings.treeFile r.root
    if (r.files disk).isFile file = false then (.ok false, r.clearTree)
    else
      match (r.files disk).read file with
      | .error cause => (.error (.unreadable file cause), r)
      | .ok text =>
        let (outcome, r) := r.readTree text
        (outcome.map fun _ => true, r)

/-- Put settings in force and read the source tree again. -/
def adoptSettings (r : Resolver) (disk : FileSystem) (settings : Settings) :
    Except ReloadError Bool × Resolver :=
  (r.putSettings settings).reload disk

/-- React to a change of a file on the disk. -/
def didChangeFile (r : Resolver) (disk : FileSystem) (path : Path) :
    Except ReloadError Unit × Resolver :=
  let path := path.normalize
  if path.fileName? = some AnalysisConfig.fileName then (.ok (), r.forgetConfigs)
  else if path = r.settings.treeFile r.root then
    let (outcome, r) := r.reload disk
    (outcome.map fun _ => (), r)
  else (.ok (), r)

end LuauWorkspace.Resolver
