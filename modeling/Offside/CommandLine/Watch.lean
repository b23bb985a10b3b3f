/-
  Offside.CommandLine.Watch
  ─────────────────────────
  Compiling again what has changed.

  A watch looks at the source files again and again.  A file is compiled when
  its modification time is not the one that was seen last.  Files are
  compiled in the order of their paths, and a file that fails is reported and
  left alone until it changes.
-/
import Offside.CommandLine.Settings

namespace Offside.CommandLine

open Compiler Offside.Action

/-! ## §1. What is watched. -/

/-- Whether a name is that of a source file. -/
def isWatchedName (name : String) : Bool := name.endsWith sourceSuffix

/-- The files that a watch looks at. -/
def watchedFiles (files : Files) (s : Settings) : Except FileError (List Path) := do
  match s.input with
  | none =>
    match ← files.look s.projectSource with
    | some .directory => files.glob s.projectSource true isWatchedName
    | _ => return []
  | some input =>
    match ← files.look input with
    | some .directory => files.glob input s.recursive isWatchedName
    | _ => return [input]

/-- Where a watched file goes; nothing means beside the file. -/
def watchTarget (files : Files) (s : Settings) (path : Path) : Option Path :=
  match s.input with
  | none => some (targetOf s.projectSource (some s.projectOutput) path)
  | some input =>
    if files.isDirectory input then
      match s.output with
      | some out => some (targetOf input (some out) path)
      | none => none
    else s.output

/-! ## §2. Telling of failures. -/

/-- A failure as it is told to the user. -/
def failureText (path : Option Path) (e : Failure) : String :=
  match e, path with
  | .source (.malformed fault source), _ =>
    (fault.report source).snippet ((path.map Path.toString).getD defaultFileName) ++ "\n"
  | e, some p => s!"error: {p}: {e.message}\n"
  | e, none => s!"error: {e.message}\n"

/-! ## §3. Looking once. -/

/-- The modification times that were seen last. -/
abbrev Seen := List (Path × Binary64)

/-- The time at which a path was seen last. -/
def Seen.get? (seen : Seen) (path : Path) : Option Binary64 :=
  (seen.find? fun e => e.1 == path).map (·.2)

/-- Forget the time of a path. -/
def Seen.forget (seen : Seen) (path : Path) : Seen := seen.filter fun e => !(e.1 == path)

/-- Note the time of a path. -/
def Seen.put (seen : Seen) (path : Path) (mtime : Binary64) : Seen :=
  (path, mtime) :: seen.forget path

/-- Compile a watched file and tell what became of it. -/
def compileWatched (s : Settings) (path : Path) : Action Unit := do
  let target := watchTarget (← get).files s path
  tryCatch
    (do
      let output ← compileFile path target
      say s!"Compiled {path} -> {output}\n")
    fun e => if e.isReported then say (failureText (some path) e) else throw e

/-- Look at one file, and compile it if it has changed.  A directory that has come
in its place has another time than any file. -/
def lookAt (s : Settings) (seen : Seen) (path : Path) : Action Seen := do
  match (← get).files.stat path with
  | .error (.refused ..) => return seen
  | .error e => throw (.files e)
  | .ok .directory =>
    compileWatched s path
    return seen.forget path
  | .ok (.file _ mtime _) =>
    if seen.get? path == some mtime then return seen
    else
      compileWatched s path
      return seen.put path mtime

/-- **One poll**: look at every watched file. -/
def poll (s : Settings) (seen : Seen) : Action Seen := do
  match watchedFiles (← get).files s with
  | .error e => throw (.files e)
  | .ok paths => paths.foldlM (lookAt s) seen

/-! ## §4. Watching. -/

/-- Say what is watched. -/
def announce (s : Settings) : Action Unit :=
  say s!"Watching {s.input.getD s.projectSource} for changes...\n"

/-- What a watch has written on the error output between two rests, rest by
rest, and how it ended. -/
structure WatchRecord where
  polls : List String
  result : Except Failure Unit
  session : Session

/-- Poll, rest, and poll again after each batch of changes by others, until
there are no more batches or a failure ends the watch. -/
def watchOn (s : Settings) : List (List Files.Change) → Seen → Session → WatchRecord
  | batches, seen, session =>
    match session.run (poll s seen) with
    | (.error e, session) => ⟨[], .error e, session⟩
    | (.ok seen, session) =>
      let told := session.stderr
      let rested := { session with stderr := "" }
      match batches with
      | [] => ⟨[told], .ok (), rested⟩
      | batch :: more =>
        let changed := { rested with files := batch.foldl Files.apply rested.files }
        let record := watchOn s more seen changed
        { record with polls := told :: record.polls }

end Offside.CommandLine
