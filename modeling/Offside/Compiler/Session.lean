/-
  Offside.Compiler.Session
  ────────────────────────
  The state in which pages are compiled, and what can go wrong.

  A session holds a compiler, the files it works on, the time on its clock
  and all that it has written to the error output.  An `Action` runs in a
  session; what it did before it failed stays done.
-/
import Offside.Cache
import Offside.Document
import Offside.Generator
import Offside.Outline

namespace Offside

/-! ## §1. Failures. -/

/-- Why a page, a directory or a project is not compiled. -/
inductive Failure where
  /-- The source cannot be read into a page. -/
  | source (error : SourceError)
  /-- The page cannot be written as text. -/
  | generate (error : GenerateError)
  /-- There is no file to compile at this location. -/
  | inputMissing (path : String)
  /-- A file cannot be read or written. -/
  | files (error : FileError)
  /-- The source file is not text. -/
  | undecodable
  /-- The directory to compile is not one. -/
  | notDirectory (path : String)
  /-- The project has no directory of sources. -/
  | viewsMissing (path : String)
  /-- A stored result went out of date between two looks at it. -/
  | entryLost
  /-- The age of a stored result cannot be told. -/
  | entryUndated
  deriving Repr, DecidableEq

/-- The wording of a failure. -/
def Failure.message : Failure → String
  | .source e => e.message
  | .generate e => e.message
  | .inputMissing path => s!"input path is not a file: {path}"
  | .files e => e.message
  | .undecodable => "source file is not text"
  | .notDirectory path => s!"path is not a directory: {path}"
  | .viewsMissing path =>
    s!"views directory not found: {path} "
      ++ "(run 'tinyhtml --init' to create the project structure)"
  | .entryLost => "stored result lost"
  | .entryUndated => Time.tooLargeMessage

/-- Whether a failure is reported and the work goes on with the next file.
Any other failure ends the work. -/
def Failure.isReported : Failure → Bool
  | .source _ | .generate .disposed | .inputMissing _ | .notDirectory _
  | .viewsMissing _ => true
  | .files e => e.isRefusal
  | _ => false

/-! ## §2. Compilers and sessions. -/

/-- What a compiler has done so far. -/
structure Stats where
  compilations : Nat := 0
  cacheHits : Nat := 0
  cacheMisses : Nat := 0
  totalTime : Rat := 0
  deriving Repr, DecidableEq

/-- The time of an average compilation. -/
def Stats.averageTime (s : Stats) : Rat :=
  if s.compilations == 0 then 0 else s.totalTime / s.compilations

/-- A number of seconds with a fixed number of places. -/
def fixedTime (places : Nat) (seconds : Rat) : String :=
  (Binary64.ofRat false seconds).fixed places

/-- A compiler: how it makes texts, what it remembers of each resolved path,
and whether it shows the outline of every page. -/
structure Compiler where
  generator : Generator
  cache : Cache Path String
  debug : Bool := false
  stats : Stats := {}

/-- A compiler at work. -/
structure Session where
  compiler : Compiler
  files : Files
  /-- The time on the clock of the cache. -/
  now : Time := .whole 0
  /-- How long a compilation is measured to take. -/
  tick : Rat := 0
  /-- How much of the progress is told. -/
  verbosity : Nat := 0
  /-- What was written to the output, and to the error output. -/
  stdout : String := ""
  stderr : String := ""

/-- Something done in a session, which may fail. -/
abbrev Action (α : Type) := ExceptT Failure (StateM Session) α

namespace Session

/-- Run an action; what it did before a failure stays done. -/
def run {α : Type} (s : Session) (action : Action α) : Except Failure α × Session :=
  StateT.run (ExceptT.run action) s

end Session

namespace Action

/-- Write to the error output. -/
def say (text : String) : Action Unit :=
  modify fun s => { s with stderr := s.stderr ++ text }

/-- Write to the output. -/
def print (text : String) : Action Unit :=
  modify fun s => { s with stdout := s.stdout ++ text }

/-- Tell about the progress, if the session is verbose enough. -/
def log (level : Level) (text : String) : Action Unit := do
  say ((⟨level, text⟩ : LogLine).shown (← get).verbosity)

/-- Change the compiler of the session. -/
def updateCompiler (f : Compiler → Compiler) : Action Unit :=
  modify fun s => { s with compiler := f s.compiler }

/-- Change the statistics of the compiler. -/
def count (f : Stats → Stats) : Action Unit :=
  updateCompiler fun c => { c with stats := f c.stats }

/-- Change the files of the session; what was changed before a refusal stays
changed. -/
def changeFiles (f : Files → Files × Except FileError Unit) : Action Unit := do
  let (files, result) := f (← get).files
  modify fun s => { s with files }
  match result with
  | .ok () => return ()
  | .error e => throw (.files e)

/-- What a path leads to, if it leads anywhere. -/
def lookAt? (path : Path) : Action (Option FileEntry) := do
  match (← get).files.look path with
  | .ok found => return found
  | .error e => throw (.files e)

/-- The names in a directory, sorted. -/
def listNames (folder : Path) : Action (List String) := do
  match (← get).files.list folder with
  | .ok names => return names
  | .error e => throw (.files e)

/-- Make a directory and those above it that are missing. -/
def makeDirectories (folder : Path) (mayExist : Bool) : Action Unit :=
  changeFiles fun fs => fs.makeDirectories folder mayExist

/-- Write a text to a file. -/
def writeText (file : Path) (text : String) : Action Unit :=
  changeFiles fun fs => fs.write file text.toUTF8

end Action

end Offside
