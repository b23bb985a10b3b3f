/-
  Offside.CommandLine.Run
  ───────────────────────
  A run of the program from its words to its exit code.
-/
import Offside.CommandLine.Watch

namespace Offside.CommandLine

open Compiler Offside.Action

/-! ## §1. How a run ends. -/

/-- A problem that a run does not handle. -/
inductive Escape where
  | settings (error : SettingsError)
  | failure (error : Failure)
  deriving Repr, DecidableEq

/-- The wording of such a problem. -/
def Escape.message : Escape → String
  | .settings e => e.message
  | .failure e => e.message

/-- How a run ends: with an exit code, or on a problem that it does not
handle. -/
inductive Ending where
  | exit (code : Nat)
  | escaped (problem : Escape)
  deriving Repr, DecidableEq

/-- What a run leaves behind. -/
structure RunResult where
  ending : Ending
  stdout : String
  /-- What a watch wrote on the error output up to each of its rests. -/
  polls : List String
  /-- What was written on the error output since then. -/
  stderr : String
  files : Files

/-! ## §2. Compiling once. -/

/-- Tell what became of the files of a directory. -/
def printReport (r : Compiler.Report) : Action Unit := do
  r.compiled.forM fun p => say s!"Compiled {p.1} -> {p.2}\n"
  r.failed.forM fun p => say (failureText (some p.1) p.2)

/-- Whether the result goes to the output and not to a file. -/
def toOutput (s : Settings) : Bool :=
  match s.output with
  | some p => p.toString == "-"
  | none => false

/-- Compile what the settings point at: the project, a directory, or a file;
say whether nothing failed. -/
def compileTarget (s : Settings) : Action Bool := do
  match s.input with
  | none =>
    let r ← compileProject Path.here s.projectSource s.projectOutput
    printReport r
    return r.ok
  | some input =>
    if (← get).files.isDirectory input then
      let r ← compileDirectory input s.output s.recursive
      printReport r
      return r.ok
    else if toOutput s then
      let html ← compile (← readSource input)
      print (if html.endsWith "\n" then html else html ++ "\n")
      return true
    else
      let target ← compileFile input s.output
      say s!"Compiled {input} -> {target}\n"
      return true

/-- The ending of work that may fail: one if the failure is told to the user,
and otherwise the failure escapes. -/
def endingOf (s : Settings) (result : Except Failure Bool) (session : Session) :
    Ending × Session :=
  match result with
  | .ok ok => (.exit (if ok then 0 else 1), session)
  | .error e =>
    if e.isReported then
      (.exit 1, { session with stderr := session.stderr ++ failureText s.input e })
    else (.escaped (.failure e), session)

/-! ## §3. The whole run. -/

/-- The formatter that the settings ask for. -/
def newFormatter (host : Tool.Host) (s : Settings) : Formatter :=
  match s.formatTimeout with
  | .value timeout => .command host s.formatCommand (.real timeout)
  | .emptyList => .command host.withoutLimit s.formatCommand Formatter.defaultTimeout

/-- The compiler that the settings ask for. -/
def newCompiler (room : Text.Room) (host : Tool.Host) (s : Settings) : Compiler where
  generator := { options := s.options, formatter := newFormatter host s, room }
  cache := Cache.empty Cache.defaultCapacity Cache.defaultTtl
  debug := s.debug

/-- What a run depends on beside its words: the files, the host for commands,
how long a compilation is measured to take, what others do to the files
while it watches, and how much memory there is. -/
structure Surroundings where
  files : Files
  host : Tool.Host
  tick : Rat := 0
  batches : List (List Files.Change) := []
  room : Text.Room := .usual

/-- Create a project skeleton and tell what was made. -/
def createProject (s : Settings) : Action Unit := do
  let created ← Project.create (s.input.getD Path.here)
  created.forM fun p => say s!"Created {p}\n"

/-- The result of a session that ended. -/
def finished (ending : Ending) (polls : List String) (session : Session) : RunResult :=
  ⟨ending, session.stdout, polls, session.stderr, session.files⟩

/-- The session in which the work of a run is done. -/
def newSession (w : Surroundings) (s : Settings) : Session where
  compiler := newCompiler w.room w.host s
  files := w.files
  tick := w.tick
  verbosity := s.verbosity

/-- A run with given settings. -/
def runSettings (w : Surroundings) (s : Settings) : RunResult :=
  let session := newSession w s
  if s.init then
    match session.run (createProject s) with
    | (.ok _, session) => finished (.exit 0) [] session
    | (.error e, session) => finished (.escaped (.failure e)) [] session
  else if s.watch then
    let (_, session) := session.run (announce s)
    let record := watchOn s w.batches [] session
    let (ending, session) := endingOf s (record.result.map fun _ => true) record.session
    finished ending record.polls session
  else
    let (result, session) := session.run (compileTarget s)
    let (ending, session) := endingOf s result session
    finished ending [] session

/-- **Run the program** on the words of a command line. -/
def run (w : Surroundings) (argv : List String) : RunResult :=
  match Arguments.parse argv with
  | .error e => ⟨.exit e.code, e.stdout, [], e.stderr, w.files⟩
  | .ok args =>
    match Settings.resolve w.files args with
    | .ok s => runSettings w s
    | .error e =>
      if e.isReported then ⟨.exit 2, "", [], s!"error: {e.message}\n", w.files⟩
      else ⟨.escaped (.settings e), "", [], "", w.files⟩

end Offside.CommandLine
