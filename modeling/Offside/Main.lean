/-
  Offside.Main
  ────────────
  The program on the command line.

  The working directory is read into a file store, the run is computed on
  that store, and what changed in it is written back.  A watch does this
  again and again, with a rest in between, until it is interrupted.
-/
import Offside.CommandLine.Run
import Offside.Tool.Host

namespace Offside.Main

open CommandLine

/-! ## §1. The working directory as a store. -/

/-- Add a directory entry, and all that is below it, to a store. -/
partial def gather (above : Location) (files : Files) (entry : IO.FS.DirEntry) : IO Files := do
  let loc := above ++ [entry.fileName]
  if ← entry.path.isDir then
    (← entry.path.readDir).foldlM (gather loc) (files.put loc .directory)
  else
    let time := (← entry.path.metadata).modified
    let mtime := Binary64.ofRat false ((time.sec : Rat) + (time.nsec.toNat : Rat) / 1000000000)
    let content ← IO.FS.readBinFile entry.path
    return files.put loc (.file content mtime true)

/-- The store of the working directory. -/
def load : IO Files := do
  let here ← IO.currentDir
  let home := (Path.ofString here.toString).parts
  (← here.readDir).foldlM (gather home) (Files.fresh home)

/-- Write back an entry that is not what it was. -/
def saveEntry (before : Files) (e : Location × FileEntry) : IO Unit := do
  let path := (⟨.root, e.1⟩ : Path).toString
  match e.2, before.at? e.1 with
  | .directory, some .directory => return ()
  | .directory, _ => IO.FS.createDirAll path
  | .file content .., some (.file old ..) =>
    if content.data != old.data then IO.FS.writeBinFile path content
  | .file content .., _ => IO.FS.writeBinFile path content

/-- Write back all that changed. -/
def save (before after : Files) : IO Unit := after.entries.forM (saveEntry before)

/-! ## §2. Running. -/

/-- Print what a run has to say on its two outputs. -/
def say (stdout stderr : String) : IO Unit := do
  let out ← IO.getStdout
  out.putStr stdout
  out.flush
  (← IO.getStderr).putStr stderr

/-- The exit code of a run. -/
def exitCode : Ending → IO UInt32
  | .exit code => return code.toUInt32
  | .escaped problem => do
    say "" s!"{programName}: {problem.message}\n"
    return 1

/-- How long a watch rests between two polls, in milliseconds. -/
def rest : UInt32 := 500

/-- Poll and rest until a failure ends the watch. -/
partial def watch (s : Settings) (seen : Seen) (session : Session) : IO UInt32 := do
  let files ← load
  let (result, after) := ({ session with files }).run (poll s seen)
  save files after.files
  say "" after.stderr
  match result with
  | .ok seen =>
    IO.sleep rest
    watch s seen { after with stderr := "" }
  | .error e =>
    let (ending, told) := endingOf s (.error e) { after with stderr := "" }
    say "" told.stderr
    exitCode ending

/-- The settings of a watch, if the words of a command line ask for one. -/
def watchSettings? (files : Files) (argv : List String) : Option Settings :=
  match Arguments.parse argv with
  | .error _ => none
  | .ok args =>
    match Settings.resolve files args with
    | .error _ => none
    | .ok s => if s.watch && !s.init then some s else none

/-- Run the program on the words of a command line. -/
def runWords (argv : List String) : IO UInt32 := do
  let files ← load
  let w : Surroundings := { files, host := Tool.Host.small }
  match watchSettings? files argv with
  | some s =>
    let (_, session) := (newSession w s).run (announce s)
    say "" session.stderr
    watch s [] { session with stderr := "" }
  | none =>
    let r := run w argv
    save files r.files
    say r.stdout r.stderr
    exitCode r.ending

end Offside.Main

/-- The command line. -/
def main (argv : List String) : IO UInt32 := Offside.Main.runWords argv
