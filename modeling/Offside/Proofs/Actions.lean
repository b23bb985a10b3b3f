/-
  Offside.Proofs.Actions
  ──────────────────────
  What the actions of a compiler do to a session.

  Running an action is opened once, by the laws of §1.  After that every
  action has one equation that says what it gives and what the session is
  like afterwards; what is told on the error output is left open, as nothing
  depends on it.  The work itself is stated without sessions: `pageFrom` is
  the page of a source, `pageOfFile` that of a source file, and `publish` puts
  a page among the files.
-/
import Mathlib
import Offside.Compiler.Compile

namespace Offside

/-! ## §1. Running actions. -/

namespace Session

variable {α β : Type} (s : Session)

/-- A value is given without doing anything. -/
@[simp]
theorem run_pure (a : α) : s.run (pure a) = (.ok a, s) := rfl

/-- A failure leaves the session as it is. -/
@[simp]
theorem run_throw (e : Failure) : s.run (throw e : Action α) = (.error e, s) := rfl

/-- Looking at the session leaves it as it is. -/
@[simp]
theorem run_get : s.run (get : Action Session) = (.ok s, s) := rfl

/-- A change is made at once. -/
@[simp]
theorem run_modify (f : Session → Session) :
    s.run (modify f : Action Unit) = (.ok (), f s) := rfl

/-- One action after the other: the second begins where the first has ended, unless the
first has failed. -/
theorem run_bind (x : Action α) (f : α → Action β) :
    s.run (x >>= f)
      = match s.run x with
        | (.ok a, s') => s'.run (f a)
        | (.error e, s') => (.error e, s') := by
  unfold Session.run
  rw [ExceptT.run_bind, StateT.run_bind]
  show (match StateT.run (ExceptT.run x) s with
    | (_, s') => StateT.run _ s') = _
  rcases StateT.run (ExceptT.run x) s with ⟨r, s'⟩
  cases r <;> rfl

/-- What was done before a failure is caught stays done. -/
theorem run_tryCatch (x : Action α) (handle : Failure → Action α) :
    s.run (tryCatch x handle)
      = match s.run x with
        | (.ok a, s') => (.ok a, s')
        | (.error e, s') => s'.run (handle e) := by
  rcases hx : s.run x with ⟨r, s'⟩
  have hrun : StateT.run x s = (r, s') := hx
  show StateT.run (ExceptT.run (ExceptT.tryCatch x handle)) s = _
  unfold ExceptT.tryCatch
  rw [ExceptT.run_mk, StateT.run_bind, hrun]
  cases r <;> rfl

/-- What follows an action that gave a result. -/
theorem run_bind_of_ok {x : Action α} {a : α} {s' : Session} (h : s.run x = (.ok a, s'))
    (f : α → Action β) : s.run (x >>= f) = s'.run (f a) := by
  rw [run_bind, h]

/-- Nothing follows an action that failed. -/
theorem run_bind_of_error {x : Action α} {e : Failure} {s' : Session}
    (h : s.run x = (.error e, s')) (f : α → Action β) :
    s.run (x >>= f) = (.error e, s') := by
  rw [run_bind, h]

/-- An action that gave something came through its first part. -/
theorem ok_of_bind {x : Action α} {f : α → Action β} {b : β} {s' : Session}
    (h : s.run (x >>= f) = (.ok b, s')) :
    ∃ a s₁, s.run x = (.ok a, s₁) ∧ s₁.run (f a) = (.ok b, s') := by
  rcases hx : s.run x with ⟨result, s₁⟩
  cases result with
  | error e =>
    rw [run_bind_of_error s hx] at h
    exact absurd (congrArg Prod.fst h) (by simp)
  | ok a =>
    rw [run_bind_of_ok s hx] at h
    exact ⟨a, s₁, rfl, h⟩

/-! ## §2. Telling, and changing what a compiler works on. -/

/-- The session with more told on its error output. -/
def tell (text : String) : Session := { s with stderr := s.stderr ++ text }

/-- The session with other files, another cache and other statistics. -/
def update (files : Files) (cache : Cache Path String) (stats : Stats) : Session :=
  { s with files, compiler := { s.compiler with cache, stats } }

@[simp] theorem tell_files (text : String) : (s.tell text).files = s.files := rfl
@[simp] theorem tell_compiler (text : String) : (s.tell text).compiler = s.compiler := rfl
@[simp] theorem tell_now (text : String) : (s.tell text).now = s.now := rfl

/-- Nothing told is nothing changed. -/
@[simp]
theorem tell_empty : s.tell "" = s := by
  simp [tell]

/-- What is told twice is told in a row. -/
@[simp]
theorem tell_tell (a b : String) : (s.tell a).tell b = s.tell (a ++ b) := by
  simp [tell, String.append_assoc]

section Update

variable (files : Files) (cache : Cache Path String) (stats : Stats)

@[simp] theorem update_files : (s.update files cache stats).files = files := rfl
@[simp] theorem update_cache : (s.update files cache stats).compiler.cache = cache := rfl
@[simp] theorem update_stats : (s.update files cache stats).compiler.stats = stats := rfl
@[simp] theorem update_generator :
    (s.update files cache stats).compiler.generator = s.compiler.generator := rfl
@[simp] theorem update_now : (s.update files cache stats).now = s.now := rfl
@[simp] theorem update_tick : (s.update files cache stats).tick = s.tick := rfl

/-- Only the last update counts. -/
@[simp]
theorem update_update (files' : Files) (cache' : Cache Path String) (stats' : Stats) :
    (s.update files cache stats).update files' cache' stats' = s.update files' cache' stats' := rfl

end Update

/-- A text that is said is told. -/
theorem run_say (text : String) : s.run (Action.say text) = (.ok (), s.tell text) := rfl

/-- A line of the log is told, or kept to oneself. -/
theorem run_log (level : Level) (text : String) :
    ∃ told, s.run (Action.log level text) = (.ok (), s.tell told) :=
  ⟨_, rfl⟩

/-- So are several of them. -/
theorem run_logs (lines : List LogLine) :
    ∃ told, s.run (lines.forM fun line => Action.log line.level line.text)
      = (.ok (), s.tell told) := by
  induction lines generalizing s with
  | nil => exact ⟨"", by rw [tell_empty]; rfl⟩
  | cons line rest ih =>
    obtain ⟨first, hfirst⟩ := s.run_log line.level line.text
    obtain ⟨others, hothers⟩ := ih (s.tell first)
    refine ⟨first ++ others, ?_⟩
    show s.run (Action.log line.level line.text >>= fun _ => _) = _
    rw [run_bind_of_ok s hfirst, ← tell_tell]
    exact hothers

/-- Changing the compiler changes nothing else. -/
theorem run_updateCompiler (f : Compiler → Compiler) :
    s.run (Action.updateCompiler f) = (.ok (), { s with compiler := f s.compiler }) := rfl

/-- Counting changes the statistics and nothing else. -/
theorem run_count (f : Stats → Stats) :
    s.run (Action.count f)
      = (.ok (), s.update s.files s.compiler.cache (f s.compiler.stats)) := rfl

/-- A look at a path changes nothing, and may fail. -/
theorem run_lookAt? (path : Path) :
    s.run (Action.lookAt? path) = ((s.files.look path).mapError .files, s) := by
  unfold Action.lookAt?
  rw [run_bind_of_ok s s.run_get]
  cases s.files.look path <;> rfl

/-- What is seen at a path is given. -/
theorem run_lookAt?_of_ok {path : Path} {found : Option FileEntry}
    (h : s.files.look path = .ok found) : s.run (Action.lookAt? path) = (.ok found, s) := by
  rw [run_lookAt?, h]
  rfl

/-- What a change of the files did before it was refused stays done. -/
theorem run_changeFiles (f : Files → Files × Except FileError Unit) :
    s.run (Action.changeFiles f)
      = ((f s.files).2.mapError .files,
          s.update (f s.files).1 s.compiler.cache s.compiler.stats) := by
  unfold Action.changeFiles
  rw [run_bind_of_ok s s.run_get]
  rcases f s.files with ⟨files, result⟩
  cases result <;> rfl

end Session

namespace Compiler

open Offside.Action Session

/-! ## §3. Pages of sources. -/

/-- What a generator makes of a source. -/
def pageFrom (g : Generator) (files : Files) (source : String) : Except Failure String :=
  match Document.parse source with
  | .error e => .error (.source e)
  | .ok forest => (g.generate files forest none).result.mapError .generate

/-- The files after a page was made of a source; a formatter may have changed
them. -/
def filesAfter (g : Generator) (files : Files) (source : String) : Files :=
  match Document.parse source with
  | .error _ => files
  | .ok forest => (g.generate files forest none).files.getD files

/-- The statistics after an attempt to make a page. -/
def statsAfter (st : Stats) (tick : Rat) : Except Failure String → Stats
  | .ok _ => { st with compilations := st.compilations + 1, totalTime := st.totalTime + tick }
  | .error _ => st

/-- **Making a page**: the generator decides what comes of it and what becomes of the
files, and only a page is counted. -/
theorem run_generate (s : Session) (source : String) (forest : List Node) :
    ∃ told, s.run (generate source forest)
      = ((s.compiler.generator.generate s.files forest none).result.mapError .generate,
          (s.update ((s.compiler.generator.generate s.files forest none).files.getD s.files)
            s.compiler.cache
            (statsAfter s.compiler.stats s.tick
              ((s.compiler.generator.generate s.files forest none).result.mapError
                .generate))).tell told) := by
  generalize hgen : s.compiler.generator.generate s.files forest none = generated
  obtain ⟨logged, hlogged⟩ := Session.run_logs
    { s with files := generated.files.getD s.files } generated.log
  unfold generate
  rw [run_bind_of_ok s s.run_get, hgen, run_bind_of_ok s (s.run_modify _),
    run_bind_of_ok _ hlogged]
  cases hresult : generated.result with
  | error e => exact ⟨logged, rfl⟩
  | ok html =>
    simp only
    rw [run_bind_of_ok _ (run_count _ _)]
    obtain ⟨told, htold⟩ := Session.run_log _ Level.debug _
    rw [run_bind_of_ok _ htold]
    refine ⟨logged ++ told, ?_⟩
    rw [← tell_tell]
    rfl

/-- **Compiling a source** gives its page, and touches the files only through
the formatter. -/
theorem run_compile (s : Session) (source : String) :
    ∃ told, s.run (compile source)
      = (pageFrom s.compiler.generator s.files source,
          (s.update (filesAfter s.compiler.generator s.files source) s.compiler.cache
            (statsAfter s.compiler.stats s.tick
              (pageFrom s.compiler.generator s.files source))).tell told) := by
  unfold compile pageFrom filesAfter
  cases Document.parse source with
  | error e => exact ⟨"", by rw [tell_empty]; rfl⟩
  | ok forest =>
    simp only
    rw [run_bind_of_ok s s.run_get]
    by_cases hdebug : s.compiler.debug = true
    · -- the outline is told before the page is made
      obtain ⟨told, htold⟩ := run_generate (s.tell (Outline.render forest)) source forest
      rw [if_pos hdebug, run_bind_of_ok s (s.run_say _)]
      refine ⟨Outline.render forest ++ told, ?_⟩
      rw [htold, ← tell_tell]
      rfl
    · rw [if_neg hdebug]
      exact run_generate s source forest

/-! ## §4. Pages of source files. -/

/-- The text of a source file. -/
def sourceText (files : Files) (path : Path) : Except Failure String :=
  match files.read path with
  | .error e => .error (.files e)
  | .ok bytes =>
    match decoded? bytes with
    | some text => .ok text
    | none => .error .undecodable

/-- Reading a source changes nothing. -/
theorem run_readSource (s : Session) (path : Path) :
    s.run (readSource path) = (sourceText s.files path, s) := by
  unfold readSource sourceText
  rw [run_bind_of_ok s s.run_get]
  cases s.files.read path with
  | error e => rfl
  | ok bytes =>
    simp only
    cases decoded? bytes <;> rfl

/-- What a generator makes of a source file. -/
def pageOfFile (g : Generator) (files : Files) (path : Path) : Except Failure String :=
  sourceText files path >>= pageFrom g files

/-- The files after a page was made of a source file. -/
def filesAfterFile (g : Generator) (files : Files) (path : Path) : Files :=
  match sourceText files path with
  | .error _ => files
  | .ok source => filesAfter g files source

section Cached

variable (s : Session) (path : Path) (mtime : Time)

/-- An entry whose age cannot be told ends the look into the cache. -/
theorem run_cached?_of_undated (h : s.compiler.cache.isUndated s.now path = true) :
    s.run (cached? path mtime) = (.error .entryUndated, s) := by
  unfold cached?
  rw [run_bind_of_ok s s.run_get, if_pos h, run_bind_of_error s (s.run_throw _)]

/-- A valid entry is there when it is looked up next, since no time has passed
in between. -/
theorem run_cached?_of_hit {e : Cache.Entry String}
    (hdated : s.compiler.cache.isUndated s.now path = false)
    (hfind : s.compiler.cache.find? path = some e)
    (hage : s.compiler.cache.expired s.now e = false)
    (hnew : Cache.outdated mtime e = false) :
    ∃ told, s.run (cached? path mtime)
      = (.ok (some e.value),
          (s.update s.files (s.compiler.cache.get s.now path).2
            { s.compiler.stats with cacheHits := s.compiler.stats.cacheHits + 1 }).tell told) := by
  have hvalid : s.compiler.cache.isValid s.now path mtime = (true, s.compiler.cache) := by
    simp [Cache.isValid, hfind, hage, hnew]
  have hget : (s.compiler.cache.get s.now path).1 = some e.value := by
    simp [Cache.get, hfind, hage]
  unfold cached?
  rw [run_bind_of_ok s s.run_get, if_neg (by simp [hdated])]
  simp only [hvalid]
  rw [run_bind_of_ok _ (run_updateCompiler _ _)]
  simp only [if_true]
  rw [run_bind_of_ok _ (run_updateCompiler _ _), run_bind_of_ok _ (run_count _ _)]
  obtain ⟨told, htold⟩ := Session.run_log _ Level.debug _
  rw [run_bind_of_ok _ htold, hget]
  exact ⟨told, rfl⟩

/-- A result that is not valid is dropped, and there is none. -/
theorem run_cached?_of_miss {cache : Cache Path String}
    (hdated : s.compiler.cache.isUndated s.now path = false)
    (hmiss : s.compiler.cache.isValid s.now path mtime = (false, cache)) :
    s.run (cached? path mtime) = (.ok none, s.update s.files cache s.compiler.stats) := by
  unfold cached?
  rw [run_bind_of_ok s s.run_get, if_neg (by simp [hdated])]
  simp only [hmiss]
  rw [run_bind_of_ok _ (run_updateCompiler _ _)]
  rfl

/-- The cache after a page was made, or not made, of a source file. -/
def stored (cache : Cache Path String) (now : Time) : Except Failure String → Cache Path String
  | .ok html => cache.set now path html (some mtime)
  | .error _ => cache

/-- The statistics after a page was made, or not made, of a source file. -/
def missed (st : Stats) (tick : Rat) : Except Failure String → Stats
  | .ok _ =>
    { st with
      compilations := st.compilations + 1
      totalTime := st.totalTime + tick
      cacheMisses := st.cacheMisses + 1 }
  | .error _ => st

/-- An entry whose age cannot be told ends the making of a page. -/
theorem run_pageOf_of_undated (h : s.compiler.cache.isUndated s.now path = true) :
    s.run (pageOf path mtime) = (.error .entryUndated, s) := by
  unfold pageOf
  rw [run_bind_of_error s (run_cached?_of_undated s path mtime h)]

/-- **A valid result** is the page, and a hit is counted. -/
theorem run_pageOf_of_hit {e : Cache.Entry String}
    (hdated : s.compiler.cache.isUndated s.now path = false)
    (hfind : s.compiler.cache.find? path = some e)
    (hage : s.compiler.cache.expired s.now e = false)
    (hnew : Cache.outdated mtime e = false) :
    ∃ told, s.run (pageOf path mtime)
      = (.ok e.value,
          (s.update s.files (s.compiler.cache.get s.now path).2
            { s.compiler.stats with cacheHits := s.compiler.stats.cacheHits + 1 }).tell told) := by
  obtain ⟨told, htold⟩ := run_cached?_of_hit s path mtime hdated hfind hage hnew
  unfold pageOf
  rw [run_bind_of_ok s htold]
  exact ⟨told, rfl⟩

/-- **A page that is not in the cache** is made of the file and stored. -/
theorem run_pageOf_of_miss {cache : Cache Path String}
    (hdated : s.compiler.cache.isUndated s.now path = false)
    (hmiss : s.compiler.cache.isValid s.now path mtime = (false, cache)) :
    ∃ told, s.run (pageOf path mtime)
      = (pageOfFile s.compiler.generator s.files path,
          (s.update (filesAfterFile s.compiler.generator s.files path)
            (stored path mtime cache s.now (pageOfFile s.compiler.generator s.files path))
            (missed s.compiler.stats s.tick
              (pageOfFile s.compiler.generator s.files path))).tell told) := by
  unfold pageOf
  rw [run_bind_of_ok s (run_cached?_of_miss s path mtime hdated hmiss)]
  simp only
  unfold pageOfFile filesAfterFile
  -- what was asked of the cache has already changed it, and it stays so if no page comes
  cases htext : sourceText s.files path with
  | error e =>
    have hread : (s.update s.files cache s.compiler.stats).run (readSource path)
        = (.error e, s.update s.files cache s.compiler.stats) := by
      rw [run_readSource, update_files, htext]
    rw [run_bind_of_error _ hread]
    exact ⟨"", by simp [bind, Except.bind, stored, missed]⟩
  | ok source =>
    have hread : (s.update s.files cache s.compiler.stats).run (readSource path)
        = (.ok source, s.update s.files cache s.compiler.stats) := by
      rw [run_readSource, update_files, htext]
    obtain ⟨told, htold⟩ := run_compile (s.update s.files cache s.compiler.stats) source
    rw [run_bind_of_ok _ hread]
    simp only [update_files, update_generator, update_cache, update_stats, update_tick,
      update_update] at htold
    refine ⟨told, ?_⟩
    show _ = (pageFrom s.compiler.generator s.files source, _)
    cases hpage : pageFrom s.compiler.generator s.files source with
    | error e =>
      rw [hpage] at htold
      rw [run_bind_of_error _ htold]
      simp [bind, Except.bind, hpage, stored, missed, statsAfter]
    | ok html =>
      rw [hpage] at htold
      rw [run_bind_of_ok _ htold]
      simp only [bind, Except.bind, hpage]
      rfl

end Cached

/-! ## §5. Publishing a page. -/

/-- The files after a page was written to a target, with the directories above
it; what was made before a refusal stays. -/
def publish (files : Files) (target : Path) (html : String) : Files × Except FileError Unit :=
  match files.makeDirectories target.parent true with
  | (files', .error e) => (files', .error e)
  | (files', .ok ()) => files'.write target html.toUTF8

/-- **A page is written** with the directories above it; what was done before a refusal
stays done. -/
theorem run_writePage (s : Session) (target : Path) (html : String) :
    s.run (writePage target html)
      = ((publish s.files target html).2.mapError .files,
          s.update (publish s.files target html).1 s.compiler.cache s.compiler.stats) := by
  unfold writePage publish makeDirectories writeText
  rw [run_bind, run_changeFiles]
  rcases s.files.makeDirectories target.parent true with ⟨files', result⟩
  cases result with
  | error e => rfl
  | ok u =>
    show Session.run _ (changeFiles _) = _
    rw [run_changeFiles]
    rfl

/-! ## §6. Compiling files. -/

section CompileFile

variable (s : Session) (source : Path) (output : Option Path)

/-- A path that cannot be resolved is not compiled. -/
theorem run_compileFile_of_unresolved {e : FileError} (h : s.files.unresolved? source = some e) :
    s.run (compileFile source output) = (.error (.files e), s) := by
  unfold compileFile
  rw [run_bind_of_ok s s.run_get]
  simp only [h]
  rw [run_bind_of_error s (s.run_throw _)]

/-- A path that cannot be looked at is not compiled. -/
theorem run_compileFile_of_error {e : FileError} (hresolved : s.files.unresolved? source = none)
    (hlook : s.files.look (s.files.resolve source) = .error e) :
    s.run (compileFile source output) = (.error (.files e), s) := by
  have hrun : s.run (Action.lookAt? (s.files.resolve source)) = (.error (.files e), s) := by
    rw [run_lookAt?, hlook]
    rfl
  unfold compileFile
  rw [run_bind_of_ok s s.run_get]
  simp only [hresolved]
  rw [run_bind_of_error s hrun]

/-- What is no file is missing as an input. -/
theorem run_compileFile_of_missing {found : Option FileEntry}
    (hresolved : s.files.unresolved? source = none)
    (hlook : s.files.look (s.files.resolve source) = .ok found)
    (hfound : ∀ content mtime executable, found ≠ some (.file content mtime executable)) :
    s.run (compileFile source output)
      = (.error (.inputMissing (s.files.resolve source).toString), s) := by
  unfold compileFile
  rw [run_bind_of_ok s s.run_get]
  simp only [hresolved]
  rw [run_bind_of_ok s (run_lookAt?_of_ok s hlook)]
  match found with
  | none => rfl
  | some .directory => rfl
  | some (.file content mtime executable) => exact absurd rfl (hfound content mtime executable)

variable {s source}

/-- Without a page nothing is written. -/
theorem run_compileFile_of_page_error {content : ByteArray} {mtime : Binary64} {executable : Bool}
    {e : Failure} {s' : Session} (hresolved : s.files.unresolved? source = none)
    (hlook : s.files.look (s.files.resolve source) = .ok (some (.file content mtime executable)))
    (hpage : s.run (pageOf (s.files.resolve source) (.real mtime)) = (.error e, s')) :
    s.run (compileFile source output) = (.error e, s') := by
  unfold compileFile
  rw [run_bind_of_ok s s.run_get]
  simp only [hresolved]
  rw [run_bind_of_ok s (run_lookAt?_of_ok s hlook)]
  simp only
  rw [run_bind_of_error s hpage]

/-- **A page that was found or made** is published, and its target is the
result. -/
theorem run_compileFile_of_page {content : ByteArray} {mtime : Binary64} {executable : Bool}
    {html : String} {s' : Session} (hresolved : s.files.unresolved? source = none)
    (hlook : s.files.look (s.files.resolve source) = .ok (some (.file content mtime executable)))
    (hpage : s.run (pageOf (s.files.resolve source) (.real mtime)) = (.ok html, s')) :
    ∃ told, s.run (compileFile source output)
      = (((publish s'.files (output.getD (source.withSuffix outputSuffix)) html).2.mapError
            Failure.files).map fun _ => output.getD (source.withSuffix outputSuffix),
          (s'.update (publish s'.files (output.getD (source.withSuffix outputSuffix)) html).1
            s'.compiler.cache s'.compiler.stats).tell told) := by
  unfold compileFile
  rw [run_bind_of_ok s s.run_get]
  simp only [hresolved]
  rw [run_bind_of_ok s (run_lookAt?_of_ok s hlook)]
  simp only
  rw [run_bind_of_ok s hpage, run_bind, run_writePage]
  cases (publish s'.files (output.getD (source.withSuffix outputSuffix)) html).2 with
  | error e => exact ⟨"", by rw [tell_empty]; rfl⟩
  | ok u => exact ⟨_, rfl⟩

end CompileFile

/-! ## §7. Compiling directories. -/

section CompileEntry

variable (s : Session) (report : Report) (file target : Path)

/-- An entry of a directory changes the session as its file does, and whatever
is reported of it is told. -/
theorem run_compileEntry_session :
    ∃ told, (s.run (compileEntry report file target)).2
      = (s.run (compileFile file (some target))).2.tell told := by
  unfold compileEntry
  rw [run_tryCatch, run_bind]
  rcases s.run (compileFile file (some target)) with ⟨result, s'⟩
  cases result with
  | ok written => exact ⟨"", by rw [tell_empty]; rfl⟩
  | error e =>
    by_cases hreported : e.isReported = true
    · simp only [if_pos hreported]
      exact ⟨_, rfl⟩
    · simp only [if_neg hreported]
      exact ⟨"", by rw [tell_empty]; rfl⟩

variable {s report file target} {s' : Session}

/-- A file that was compiled is noted with its target. -/
theorem run_compileEntry_of_ok {written : Path}
    (h : s.run (compileFile file (some target)) = (.ok written, s')) :
    s.run (compileEntry report file target)
      = (.ok { report with compiled := report.compiled ++ [(file, target)] }, s') := by
  unfold compileEntry
  rw [run_tryCatch, run_bind_of_ok s h]
  rfl

/-- A failure that is reported is noted, and the work goes on. -/
theorem run_compileEntry_of_reported {e : Failure}
    (h : s.run (compileFile file (some target)) = (.error e, s'))
    (hreported : e.isReported = true) :
    ∃ told, s.run (compileEntry report file target)
      = (.ok { report with failed := report.failed ++ [(file, e)] }, s'.tell told) := by
  unfold compileEntry
  rw [run_tryCatch, run_bind_of_error s h]
  simp only [if_pos hreported]
  exact ⟨_, rfl⟩

/-- Any other failure ends the work. -/
theorem run_compileEntry_of_unreported {e : Failure}
    (h : s.run (compileFile file (some target)) = (.error e, s'))
    (hreported : e.isReported = false) :
    s.run (compileEntry report file target) = (.error e, s') := by
  unfold compileEntry
  rw [run_tryCatch, run_bind_of_error s h]
  simp only [hreported, Bool.false_eq_true, if_false]
  rfl

end CompileEntry

section CompileDirectory

variable (s : Session) (source : Path) (output : Option Path)

/-- A directory is walked down from where it is. -/
theorem run_compileDirectory_of_directory (deep : Bool)
    (hlook : s.files.look source = .ok (some .directory)) :
    s.run (compileDirectory source output deep)
      = s.run (walkDown deep compileEntry Files.maxLevels source output {}) := by
  unfold compileDirectory
  rw [run_bind_of_ok s (run_lookAt?_of_ok s hlook)]

/-- What is no directory is not walked through. -/
theorem run_compileDirectory_of_other (deep : Bool)
    (hlook : s.files.look source ≠ .ok (some .directory)) :
    ∃ e, s.run (compileDirectory source output deep) = (.error e, s) := by
  unfold compileDirectory
  rw [run_bind, run_lookAt?]
  match h : s.files.look source with
  | .error e => exact ⟨.files e, rfl⟩
  | .ok none => exact ⟨_, rfl⟩
  | .ok (some (.file content mtime executable)) => exact ⟨_, rfl⟩
  | .ok (some .directory) => exact absurd h hlook

/-- Where there is a report, there was a directory. -/
theorem look_of_compileDirectory {s s' : Session} {source : Path} {output : Option Path}
    {deep : Bool} {report : Report}
    (hrun : s.run (compileDirectory source output deep) = (.ok report, s')) :
    s.files.look source = .ok (some .directory) := by
  by_contra hother
  obtain ⟨e, herror⟩ := run_compileDirectory_of_other s source output deep hother
  rw [hrun] at herror
  exact absurd (congrArg Prod.fst herror) (by simp)

/-- A project is the directory of its sources, compiled to that of its pages. -/
theorem run_compileProject_of_directory (root sources out : Path)
    (hlook : s.files.look (root.join sources) = .ok (some .directory)) :
    s.run (compileProject root sources out)
      = s.run (compileDirectory (root.join sources) (some (root.join out)) true) := by
  unfold compileProject
  simp only
  rw [run_bind_of_ok s (run_lookAt?_of_ok s hlook)]

/-- Without a directory of sources there is no project to compile. -/
theorem run_compileProject_of_other (root sources out : Path)
    (hlook : s.files.look (root.join sources) ≠ .ok (some .directory)) :
    ∃ e, s.run (compileProject root sources out) = (.error e, s) := by
  unfold compileProject
  simp only
  rw [run_bind, run_lookAt?]
  match h : s.files.look (root.join sources) with
  | .error e => exact ⟨.files e, rfl⟩
  | .ok none => exact ⟨_, rfl⟩
  | .ok (some (.file content mtime executable)) => exact ⟨_, rfl⟩
  | .ok (some .directory) => exact absurd h hlook

end CompileDirectory

/-! ## §8. Housekeeping. -/

/-- Old results are not cleaned up while the age of one cannot be told. -/
theorem run_cleanupCache_of_undated {s : Session}
    (h : s.compiler.cache.hasUndated s.now = true) :
    s.run cleanupCache = (.error .entryUndated, s) := by
  unfold cleanupCache
  rw [run_bind_of_ok s s.run_get, if_pos h, run_bind_of_error s (s.run_throw _)]

/-- Cleaning up the cache tells how many results were removed, and changes nothing else.
-/
theorem run_cleanupCache {s : Session} (h : s.compiler.cache.hasUndated s.now = false) :
    ∃ told, s.run cleanupCache
      = (.ok (s.compiler.cache.cleanup s.now).1,
          (s.update s.files (s.compiler.cache.cleanup s.now).2 s.compiler.stats).tell told) := by
  unfold cleanupCache
  rw [run_bind_of_ok s s.run_get, if_neg (by simp [h])]
  simp only
  rw [run_bind_of_ok _ (run_updateCompiler _ _)]
  by_cases hremoved : ((s.compiler.cache.cleanup s.now).1 != 0) = true
  · rw [if_pos hremoved]
    obtain ⟨told, htold⟩ := Session.run_log _ Level.debug _
    rw [run_bind_of_ok _ htold]
    exact ⟨told, rfl⟩
  · rw [if_neg hremoved]
    exact ⟨"", by rw [tell_empty]; rfl⟩

/-- Cleaning up leaves everything alone but the entries that are too old, if it does
anything at all. -/
theorem run_cleanupCache_session (s : Session) :
    ∃ told, (s.run cleanupCache).2 = s.tell told
      ∨ (s.run cleanupCache).2
          = (s.update s.files (s.compiler.cache.cleanup s.now).2 s.compiler.stats).tell told := by
  cases h : s.compiler.cache.hasUndated s.now with
  | true =>
    rw [run_cleanupCache_of_undated h]
    exact ⟨"", .inl (by rw [tell_empty])⟩
  | false =>
    obtain ⟨told, hrun⟩ := run_cleanupCache h
    rw [hrun]
    exact ⟨told, .inr rfl⟩

end Compiler

end Offside
