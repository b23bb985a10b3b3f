/-
  Offside.Compiler.Compile
  ────────────────────────
  Compiling sources, files, directories and projects.

  A file is compiled again only if the cache has no result for it that is
  still valid.  A directory is compiled file by file in the order of the
  paths; a file that fails is reported and the next one is taken up.
-/
import Offside.Compiler.Session

namespace Offside.Compiler

open Text Offside.Action

/-! ## §1. Sources and files. -/

/-- The suffix of a source file. -/
def sourceSuffix : String := ".tml"

/-- The suffix of a compiled file. -/
def outputSuffix : String := ".html"

/-- Make the text of a forest that was read from a source, and count it. -/
def generate (source : String) (forest : List Node) : Action String := do
  let s ← get
  let generated := s.compiler.generator.generate s.files forest none
  modify fun s => { s with files := generated.files.getD s.files }
  generated.log.forM fun line => log line.level line.text
  match generated.result with
  | .error e => throw (.generate e)
  | .ok html =>
    count fun st =>
      { st with compilations := st.compilations + 1, totalTime := st.totalTime + s.tick }
    log .debug
      s!"compiled {source.length} chars to {html.length} chars in {fixedTime 3 s.tick}s"
    return html

/-- Compile a source to the text of a page. -/
def compile (source : String) : Action String :=
  match Document.parse source with
  | .error e => throw (.source e)
  | .ok forest => do
    if (← get).compiler.debug then say (Outline.render forest)
    generate source forest

/-- The text of a source file, with plain newlines. -/
def readSource (path : Path) : Action String := do
  match (← get).files.read path with
  | .error e => throw (.files e)
  | .ok bytes =>
    match decoded? bytes with
    | some text => return text
    | none => throw .undecodable

/-- The text for a source file from the cache, or nothing if the cache has no
valid one. -/
def cached? (key : Path) (mtime : Time) : Action (Option String) := do
  let s ← get
  if s.compiler.cache.isUndated s.now key then throw .entryUndated
  let (valid, cache) := s.compiler.cache.isValid s.now key mtime
  updateCompiler fun c => { c with cache }
  if valid then
    let (found, cache) := cache.get s.now key
    updateCompiler fun c => { c with cache }
    count fun st => { st with cacheHits := st.cacheHits + 1 }
    log .debug s!"using cached compilation for {key}"
    match found with
    | some html => return some html
    | none => throw .entryLost
  else return none

/-- The text for a source file, from the cache or compiled and put there. -/
def pageOf (resolved : Path) (mtime : Time) : Action String := do
  match ← cached? resolved mtime with
  | some html => return html
  | none =>
    let html ← compile (← readSource resolved)
    let now := (← get).now
    updateCompiler fun c => { c with cache := c.cache.set now resolved html (some mtime) }
    count fun st => { st with cacheMisses := st.cacheMisses + 1 }
    return html

/-- Write a text to a file, with the directories above it. -/
def writePage (output : Path) (html : String) : Action Unit := do
  makeDirectories output.parent true
  writeText output html

/-- Compile a file and say where the result was written: to `output`, or
beside the file under the other suffix. -/
def compileFile (source : Path) (output : Option Path) : Action Path := do
  let files := (← get).files
  if let some e := files.unresolved? source then throw (.files e)
  let resolved := files.resolve source
  match ← lookAt? resolved with
  | some (.file _ mtime _) =>
    let target := output.getD (source.withSuffix outputSuffix)
    let html ← pageOf resolved (.real mtime)
    writePage target html
    log .info s!"compiled {source} -> {target}"
    return target
  | _ => throw (.inputMissing resolved.toString)

/-! ## §2. Directories and projects. -/

/-- What became of the files of a directory: those that were compiled, with
their targets, and those that failed. -/
structure Report where
  compiled : List (Path × Path) := []
  failed : List (Path × Failure) := []

/-- Whether no file failed. -/
def Report.ok (r : Report) : Bool := r.failed.isEmpty

/-- Whether a file is a source by its suffix. -/
def isSourceName (name : String) : Bool := (Path.splitSuffix name).2 == sourceSuffix

/-- Where a file below `source` goes: to the same place below `output`, or
beside itself, under the other suffix. -/
def targetOf (source : Path) (output : Option Path) (file : Path) : Path :=
  let moved :=
    match output with
    | some out => out.join (file.relativeTo source)
    | none => file
  moved.withSuffix outputSuffix

/-- Take up one name in a directory: go down, treat it as a source, or leave it
alone.  The same name leads from the output to the target. -/
def visit {β : Type} (deep : Bool) (treat : β → Path → Path → Action β)
    (down : Path → Option Path → β → Action β) (source : Path) (output : Option Path)
    (done : β) (name : String) : Action β := do
  let file := source.child name
  let moved := output.map fun out => out.child name
  match ← lookAt? file with
  | some .directory => if deep then down file moved done else return done
  | some (.file ..) =>
    if isSourceName name then treat done file ((moved.getD file).withSuffix outputSuffix)
    else return done
  | none => return done

/-- **Treat the sources below a directory**, a number of levels down.  Each
directory is listed when it is reached. -/
def walkDown {β : Type} (deep : Bool) (treat : β → Path → Path → Action β) :
    Nat → Path → Option Path → β → Action β
  | 0, _, _, _ => throw (.files .tooDeep)
  | levels + 1, source, output, done => do
    let names ← listNames source
    names.foldlM (visit deep treat (walkDown deep treat levels) source output) done

/-- Compile one file of a directory and note what became of it. -/
def compileEntry (report : Report) (file target : Path) : Action Report :=
  tryCatch
    (do
      let _ ← compileFile file (some target)
      return { report with compiled := report.compiled ++ [(file, target)] })
    fun e => do
      if e.isReported then
        log .error s!"failed to compile {file}: {e.message}"
        return { report with failed := report.failed ++ [(file, e)] }
      else throw e

/-- Compile every source file of a directory, and of those below it if
`deep`. -/
def compileDirectory (source : Path) (output : Option Path) (deep : Bool) :
    Action Report := do
  match ← lookAt? source with
  | some .directory => walkDown deep compileEntry Files.maxLevels source output {}
  | _ => throw (.notDirectory source.toString)

/-- The directory of sources of a project. -/
def projectSource : String := "tinyhtml-views"

/-- The directory of compiled files of a project. -/
def projectOutput : String := "views"

/-- Compile a project: every source file below one directory, to the same
place below another. -/
def compileProject (root : Path) (source output : Path) : Action Report := do
  let views := root.join source
  match ← lookAt? views with
  | some .directory => compileDirectory views (some (root.join output)) true
  | _ => throw (.viewsMissing views.toString)

/-! ## §3. Housekeeping. -/

/-- Forget all results. -/
def clearCache : Action Unit := do
  updateCompiler fun c => { c with cache := c.cache.clear }
  log .info "compilation cache cleared"

/-- Forget the results that are too old and say how many there were. -/
def cleanupCache : Action Nat := do
  let s ← get
  if s.compiler.cache.hasUndated s.now then throw .entryUndated
  let (removed, cache) := s.compiler.cache.cleanup s.now
  updateCompiler fun c => { c with cache }
  if removed != 0 then log .debug s!"removed {removed} expired cache entries"
  return removed

/-- Compile nothing any more and forget all results. -/
def dispose : Action Unit :=
  updateCompiler fun c =>
    { c with generator := c.generator.dispose, cache := c.cache.clear }

end Offside.Compiler
