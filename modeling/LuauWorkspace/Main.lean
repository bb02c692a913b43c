import LuauWorkspace.CommandLine.Survey
import LuauWorkspace.FileSystem.Known

/-! # The program

The disk is looked at where the command needs it, and the command is run on what has been found. -/

namespace LuauWorkspace

/-- Look at a place on the disk. -/
def lookAt (place : Path) : IO (Option DiskEntry) := do
  let file := (← IO.currentDir) / place.toString
  try
    match (← file.metadata).type with
    | .file => return some (.file (String.fromUTF8? (← IO.FS.readBinFile file)))
    | .dir => return some .directory
    | _ => return none
  catch _ => return none

/-- Look at all places that decide what a command does. Each round brings up the places that the
findings of the round before name. -/
def survey (home : Option String) (directory : Path) (invocation : Invocation)
    (known : KnownFiles) : Nat → IO KnownFiles
  | 0 => return known
  | rounds + 1 => do
    let here : Surroundings := { home, directory, disk := known.fileSystem }
    let fresh := (here.places invocation).filter (!known.covers ·)
    if fresh.isEmpty then return known
    let known ← fresh.foldlM (fun known place => return known.insert place (← lookAt place)) known
    survey home directory invocation known rounds

/-- A line on how to call the program. -/
def usage : String :=
  "Usage: lurk [--root DIR] [--sourcemap FILE] [-q | -v...] " ++
    "(resolve REQUIRE [--from FILE] | module-name FILE | read MODULE | config FILE)"

/-- Run the command that the arguments name. -/
def program (arguments : List String) : IO UInt32 := do
  match Invocation.ofArguments arguments with
  | .error cause =>
    if cause = .help then IO.println usage else IO.eprintln usage
    return cause.exitCode.toUInt32
  | .ok invocation =>
    let home := (← IO.getEnv "HOME").filter (· ≠ "")
    let directory := Path.ofString (← IO.currentDir).toString
    let known ← survey home directory invocation .empty 32
    let outcome := Surroundings.run { home, directory, disk := known.fileSystem } invocation
    IO.print outcome.output
    IO.eprint outcome.errors
    return outcome.exitCode.toUInt32

end LuauWorkspace

/-- The entry of the program. -/
def main (arguments : List String) : IO UInt32 := LuauWorkspace.program arguments
