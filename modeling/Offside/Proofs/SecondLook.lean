/-
  Offside.Proofs.SecondLook
  ─────────────────────────
  **A PAGE THAT LAPSES BETWEEN TWO LOOKS AT THE CLOCK.**

  To compile a file the clock of the cache is looked at twice: to test whether the
  page of the file is remembered, and again to take that page out or to put a new
  one in.  `compileFileAfter` is this work on a clock that shows a given time at
  the second look; on a clock that stands still it is `compileFile`
  (`run_compileFileAfter_now`).

  An entry that passed the test is found at the second look if and only if it is
  still young enough then.  Where it is not (`Lapses`), the directories for the
  page are made and there is nothing to write into them.
-/
import Offside.Proofs.FailedCalls

namespace Offside

/-! ## §1. Two looks at an entry. -/

namespace Cache

variable {κ α : Type} [BEq κ] {c : Cache κ α} {key : κ} {now : Time}

/-- A test that is passed leaves the cache alone. -/
theorem isValid_held_cache {mtime : Time}
    (h : ((Op.isValid key mtime : Op κ α).apply c now).1 = .held true) :
    ((Op.isValid key mtime : Op κ α).apply c now).2 = c := by
  obtain ⟨e, hfind, hwithin, hnew⟩ := isValid_held_iff.mp h
  obtain ⟨hdated, hage⟩ := within_iff.mp hwithin
  simp [Op.apply, Op.isUndated, Op.perform, isUndated, isValid, hfind, hdated, hage, hnew]

/-- A lookup finds nothing under a key whose entry is too old. -/
theorem get_found_none_iff {e : Entry α} (hfind : c.find? key = some e) :
    ((Op.get key : Op κ α).apply c now).1 = .found none
      ↔ ageless now e = false ∧ c.expired now e = true := by
  cases hage : ageless now e <;> cases hold : c.expired now e <;>
    simp [Op.apply, Op.isUndated, Op.perform, isUndated, get, hfind, hage, hold]

/-- **An entry that passed the test** is found later if and only if it is young
enough then, and is lost if and only if it is too old. -/
theorem get_of_isValid {mtime : Time}
    (h : ((Op.isValid key mtime : Op κ α).apply c now).1 = .held true) (later : Time) :
    ∃ e, c.find? key = some e
      ∧ (((Op.get key).apply ((Op.isValid key mtime).apply c now).2 later).1 = .found (some e.value)
          ↔ Time.Within c.ttl e.storedAt later)
      ∧ (((Op.get key).apply ((Op.isValid key mtime).apply c now).2 later).1 = .found none
          ↔ ageless later e = false ∧ c.expired later e = true) := by
  obtain ⟨e, hfind, -, -⟩ := isValid_held_iff.mp h
  rw [isValid_held_cache h]
  refine ⟨e, hfind, ?_, get_found_none_iff hfind⟩
  rw [get_found_iff]
  constructor
  · intro hfound
    obtain ⟨e', hfind', hwithin, -⟩ := hfound
    obtain rfl : e = e' := Option.some.inj (hfind.symm.trans hfind')
    exact hwithin
  · exact fun hwithin => ⟨e, hfind, hwithin, rfl⟩

end Cache

namespace Compiler

open Offside.Action Session

/-! ## §2. Compiling a file on a clock that goes on. -/

/-- The text for a source file, compiled and put into the cache at a time. -/
def makePage (now : Time) (resolved : Path) (mtime : Time) : Action String := do
  let html ← compile (← readSource resolved)
  updateCompiler fun c => { c with cache := c.cache.set now resolved html (some mtime) }
  count fun st => { st with cacheMisses := st.cacheMisses + 1 }
  return html

/-- The text for a source file, from the cache or compiled and put there, on a clock
that shows `later` at the second look.  There is none if the cache has lost it by
then. -/
def pageAfter (later : Time) (resolved : Path) (mtime : Time) : Action (Option String) := do
  let s ← get
  if s.compiler.cache.isUndated s.now resolved then throw .entryUndated
  let (valid, cache) := s.compiler.cache.isValid s.now resolved mtime
  updateCompiler fun c => { c with cache }
  if valid then
    if cache.isUndated later resolved then throw .entryUndated
    let (found, cache) := cache.get later resolved
    updateCompiler fun c => { c with cache }
    count fun st => { st with cacheHits := st.cacheHits + 1 }
    log .debug s!"using cached compilation for {resolved}"
    return found
  else return some (← makePage later resolved mtime)

/-- Write a text to a file, with the directories above it.  A text that is missing
is noticed after the directories were made. -/
def writeFound (output : Path) : Option String → Action Unit
  | some html => writePage output html
  | none => do
    makeDirectories output.parent true
    throw .entryLost

/-- Compile a file on a clock that shows `later` at the second look, and say where
the result was written. -/
def compileFileAfter (later : Time) (source : Path) (output : Option Path) : Action Path := do
  let files := (← get).files
  if let some e := files.unresolved? source then throw (.files e)
  let resolved := files.resolve source
  match ← lookAt? resolved with
  | some (.file _ mtime _) =>
    let target := output.getD (source.withSuffix outputSuffix)
    let html ← pageAfter later resolved (.real mtime)
    writeFound target html
    log .info s!"compiled {source} -> {target}"
    return target
  | _ => throw (.inputMissing resolved.toString)

section Still

variable (s : Session)

/-- A page that is made is put into the cache at the time of the session, if that is
the time at which it is put there. -/
theorem run_makePage_now (path : Path) (mtime : Time) :
    s.run (makePage s.now path mtime)
      = s.run (do
          let html ← compile (← readSource path)
          let now := (← get).now
          updateCompiler fun c => { c with cache := c.cache.set now path html (some mtime) }
          count fun st => { st with cacheMisses := st.cacheMisses + 1 }
          return html) := by
  unfold makePage
  cases htext : sourceText s.files path with
  | error e =>
    have hread : s.run (readSource path) = (.error e, s) := by rw [run_readSource, htext]
    rw [run_bind_of_error s hread, run_bind_of_error s hread]
  | ok source =>
    have hread : s.run (readSource path) = (.ok source, s) := by rw [run_readSource, htext]
    obtain ⟨told, hcompile⟩ := run_compile s source
    rw [run_bind_of_ok s hread, run_bind_of_ok s hread]
    -- compiling takes no time on this clock
    cases hpage : pageFrom s.compiler.generator s.files source with
    | error e =>
      rw [hpage] at hcompile
      rw [run_bind_of_error s hcompile, run_bind_of_error s hcompile]
    | ok html =>
      rw [hpage] at hcompile
      rw [run_bind_of_ok s hcompile, run_bind_of_ok s hcompile]
      rfl

section Page

variable (path : Path) (mtime later : Time)

theorem run_pageAfter_of_undated (h : s.compiler.cache.isUndated s.now path = true) :
    s.run (pageAfter later path mtime) = (.error .entryUndated, s) := by
  unfold pageAfter
  rw [run_bind_of_ok s s.run_get, if_pos h, run_bind_of_error s (s.run_throw _)]

theorem run_pageAfter_of_miss {cache : Cache Path String}
    (hdated : s.compiler.cache.isUndated s.now path = false)
    (hmiss : s.compiler.cache.isValid s.now path mtime = (false, cache)) :
    s.run (pageAfter later path mtime)
      = (s.update s.files cache s.compiler.stats).run (some <$> makePage later path mtime) := by
  unfold pageAfter
  rw [run_bind_of_ok s s.run_get, if_neg (by simp [hdated])]
  simp only [hmiss, Bool.false_eq_true, if_false]
  rw [run_bind_of_ok s (run_updateCompiler s _)]
  rfl

theorem run_pageOf_eq_makePage {cache : Cache Path String}
    (hdated : s.compiler.cache.isUndated s.now path = false)
    (hmiss : s.compiler.cache.isValid s.now path mtime = (false, cache)) :
    s.run (pageOf path mtime)
      = (s.update s.files cache s.compiler.stats).run (makePage s.now path mtime) := by
  unfold pageOf
  rw [run_bind_of_ok s (run_cached?_of_miss s path mtime hdated hmiss)]
  exact (run_makePage_now (s.update s.files cache s.compiler.stats) path mtime).symm

/-- A page that passed the test is looked up at the second look, whatever the clock
shows then. -/
theorem run_pageAfter_of_hit {e : Cache.Entry String}
    (hdated : s.compiler.cache.isUndated s.now path = false)
    (hfind : s.compiler.cache.find? path = some e)
    (hage : s.compiler.cache.expired s.now e = false)
    (hnew : Cache.outdated mtime e = false) :
    s.run (pageAfter later path mtime)
      = s.run (do
          if s.compiler.cache.isUndated later path then throw .entryUndated
          updateCompiler fun c => { c with cache := (s.compiler.cache.get later path).2 }
          count fun st => { st with cacheHits := st.cacheHits + 1 }
          log .debug s!"using cached compilation for {path}"
          return (s.compiler.cache.get later path).1) := by
  have hvalid : s.compiler.cache.isValid s.now path mtime = (true, s.compiler.cache) := by
    simp [Cache.isValid, hfind, hage, hnew]
  unfold pageAfter
  rw [run_bind_of_ok s s.run_get, if_neg (by simp [hdated])]
  simp only [hvalid, if_true]
  rw [run_bind_of_ok s (run_updateCompiler s _)]

/-- On a clock that stands still a page that passed the test is there. -/
theorem run_pageAfter_now :
    s.run (pageAfter s.now path mtime) = s.run (some <$> pageOf path mtime) := by
  rw [map_eq_pure_bind, run_bind]
  cases hdated : s.compiler.cache.isUndated s.now path with
  | true => rw [run_pageOf_of_undated s path mtime hdated, run_pageAfter_of_undated s _ _ _ hdated]
  | false =>
    obtain ⟨e, hfind, hage, hnew⟩ | ⟨cache, hmiss⟩ :=
      Cache.isValid_cases s.compiler.cache s.now path mtime
    · have hvalid : s.compiler.cache.isValid s.now path mtime = (true, s.compiler.cache) := by
        simp [Cache.isValid, hfind, hage, hnew]
      have hget : (s.compiler.cache.get s.now path).1 = some e.value := by
        simp [Cache.get, hfind, hage]
      rw [run_pageAfter_of_hit s path mtime s.now hdated hfind hage hnew]
      -- the second look is the first one again, and finds the entry that passed it
      unfold pageOf cached?
      rw [run_bind s (_ >>= _), run_bind_of_ok s s.run_get]
      simp only [hvalid, if_true, hdated, Bool.false_eq_true, if_false]
      rw [hget]
      rfl
    · rw [run_pageOf_eq_makePage s path mtime hdated hmiss,
        run_pageAfter_of_miss s path mtime s.now hdated hmiss, map_eq_pure_bind, run_bind]

end Page

variable {s} {source : Path} (output : Option Path)

/-- A file that is there is compiled in two steps. -/
theorem run_compileFileAfter_of_file (later : Time) {content : ByteArray} {mtime : Binary64}
    {executable : Bool} (hresolved : s.files.unresolved? source = none)
    (hlook : s.files.look (s.files.resolve source) = .ok (some (.file content mtime executable))) :
    s.run (compileFileAfter later source output)
      = s.run (do
          let html ← pageAfter later (s.files.resolve source) (.real mtime)
          writeFound (pageTarget source output) html
          log .info s!"compiled {source} -> {pageTarget source output}"
          return pageTarget source output) := by
  unfold compileFileAfter
  rw [run_bind_of_ok s s.run_get]
  simp only [hresolved]
  rw [run_bind_of_ok s (run_lookAt?_of_ok s hlook)]

/-- Where there is no file, the clock is not looked at. -/
theorem run_compileFileAfter_of_absent (later : Time) (habsent : timeOf? s.files source = none) :
    s.run (compileFileAfter later source output) = s.run (compileFile source output) := by
  unfold compileFileAfter compileFile
  rw [run_bind_of_ok s s.run_get, run_bind_of_ok s s.run_get]
  cases hresolved : s.files.unresolved? source with
  | some e =>
    simp only [hresolved]
    rfl
  | none =>
    simp only [hresolved]
    rw [run_bind, run_bind, run_lookAt?]
    cases hlook : s.files.look (s.files.resolve source) with
    | error e => rfl
    | ok found =>
      cases found with
      | none => rfl
      | some entry =>
        cases entry with
        | directory => rfl
        | file content mtime executable =>
          rw [timeOf?_eq_some_iff.mpr ⟨hresolved, content, executable, hlook⟩] at habsent
          exact absurd habsent (by simp)

/-- **A clock that stands still.** -/
theorem run_compileFileAfter_now :
    s.run (compileFileAfter s.now source output) = s.run (compileFile source output) := by
  cases hfound : timeOf? s.files source with
  | none => exact run_compileFileAfter_of_absent output s.now hfound
  | some mtime =>
    obtain ⟨hresolved, content, executable, hlook⟩ := timeOf?_eq_some_iff.mp hfound
    rw [run_compileFileAfter_of_file output s.now hresolved hlook, run_bind, run_pageAfter_now,
      map_eq_pure_bind, run_bind]
    unfold compileFile
    rw [run_bind_of_ok s s.run_get]
    simp only [hresolved]
    rw [run_bind_of_ok s (run_lookAt?_of_ok s hlook)]
    simp only
    rw [run_bind s (pageOf _ _)]
    cases s.run (pageOf (s.files.resolve source) (.real mtime)) with
    | mk result s' => cases result <;> rfl

end Still

/-! ## §3. What is lost between the two looks. -/

/-- The file of a source is there, and its entry passes the test at the time of the
session. -/
def Validated (s : Session) (source : Path) (e : Cache.Entry String) : Prop :=
  ∃ mtime, timeOf? s.files source = some mtime
    ∧ s.compiler.cache.find? (s.files.resolve source) = some e
    ∧ Time.Within s.compiler.cache.ttl e.storedAt s.now ∧ Cache.outdated (.real mtime) e = false

/-- The entry of a source passes the test at the time of the session, and is too old
at a later time. -/
def Lapses (s : Session) (source : Path) (later : Time) : Prop :=
  ∃ e, Validated s source e ∧ Cache.ageless later e = false
    ∧ s.compiler.cache.expired later e = true

section Lost

variable {s : Session} {source : Path} (output : Option Path)

/-- What a compiler gives for a file whose entry passed the test. -/
theorem run_compileFileAfter_of_validated {e : Cache.Entry String} (h : Validated s source e)
    {later : Time} (hlater : Cache.ageless later e = false) :
    ∃ told, s.run (compileFileAfter later source output)
      = ((s.update s.files (s.compiler.cache.get later (s.files.resolve source)).2
            s.compiler.stats.withHit).tell told).run (do
          writeFound (pageTarget source output)
            (s.compiler.cache.get later (s.files.resolve source)).1
          log .info s!"compiled {source} -> {pageTarget source output}"
          return pageTarget source output) := by
  obtain ⟨mtime, hfound, hfind, hwithin, hnew⟩ := h
  obtain ⟨hresolved, content, executable, hlook⟩ := timeOf?_eq_some_iff.mp hfound
  obtain ⟨hdated, hage⟩ := Cache.within_iff.mp hwithin
  have hdated : s.compiler.cache.isUndated s.now (s.files.resolve source) = false := by
    simp [Cache.isUndated, hfind, hdated]
  have hlater : s.compiler.cache.isUndated later (s.files.resolve source) = false := by
    simp [Cache.isUndated, hfind, hlater]
  obtain ⟨told, htold⟩ := Session.run_log (s.update s.files
    (s.compiler.cache.get later (s.files.resolve source)).2 s.compiler.stats.withHit) .debug
    s!"using cached compilation for {s.files.resolve source}"
  have hpage : s.run (pageAfter later (s.files.resolve source) (.real mtime))
      = (.ok (s.compiler.cache.get later (s.files.resolve source)).1,
          (s.update s.files (s.compiler.cache.get later (s.files.resolve source)).2
            s.compiler.stats.withHit).tell told) := by
    rw [run_pageAfter_of_hit s _ _ later hdated hfind hage hnew, if_neg (by simp [hlater]),
      run_bind_of_ok s (run_updateCompiler s _), run_bind_of_ok _ (run_count _ _)]
    exact run_bind_of_ok _ htold _
  rw [run_compileFileAfter_of_file output later hresolved hlook, run_bind_of_ok s hpage]
  exact ⟨told, rfl⟩

/-- **A page that is still young enough** is published. -/
theorem run_compileFileAfter_of_kept {e : Cache.Entry String} (h : Validated s source e)
    {later : Time} (hwithin : Time.Within s.compiler.cache.ttl e.storedAt later) :
    (s.run (compileFileAfter later source output)).1
        = published s.files (pageTarget source output) e.value
      ∧ (s.run (compileFileAfter later source output)).2.files
        = (publish s.files (pageTarget source output) e.value).1 := by
  obtain ⟨hlater, hage⟩ := Cache.within_iff.mp hwithin
  obtain ⟨told, hrun⟩ := run_compileFileAfter_of_validated output h hlater
  obtain ⟨mtime, -, hfind, -, -⟩ := h
  have hget : (s.compiler.cache.get later (s.files.resolve source)).1 = some e.value := by
    simp [Cache.get, hfind, hage]
  rw [hrun, hget, run_bind]
  simp only [writeFound, run_writePage, tell_files, update_files, published]
  cases (publish s.files (pageTarget source output) e.value).2 <;> exact ⟨rfl, rfl⟩

/-- **A page that has lapsed** is not there to be written when the directories for
it were made. -/
theorem run_compileFileAfter_of_lapsed {e : Cache.Entry String} (h : Validated s source e)
    {later : Time} (hlater : Cache.ageless later e = false)
    (hold : s.compiler.cache.expired later e = true) :
    (s.run (compileFileAfter later source output)).1
        = ((s.files.makeDirectories (pageTarget source output).parent true).2.mapError
            Failure.files).bind (fun _ => .error .entryLost)
      ∧ (s.run (compileFileAfter later source output)).2.files
        = (s.files.makeDirectories (pageTarget source output).parent true).1 := by
  obtain ⟨told, hrun⟩ := run_compileFileAfter_of_validated output h hlater
  obtain ⟨mtime, -, hfind, -, -⟩ := h
  have hget : (s.compiler.cache.get later (s.files.resolve source)).1 = none := by
    simp [Cache.get, hfind, hold]
  rw [hrun, hget, run_bind]
  simp only [writeFound]
  rw [run_bind, makeDirectories, run_changeFiles, tell_files, update_files]
  cases (s.files.makeDirectories (pageTarget source output).parent true).2 <;> exact ⟨rfl, rfl⟩

end Lost

/-! ## §4. Where nothing is lost. -/

/-- An action that never fails for want of a page that was remembered. -/
def LosesNothing {α : Type} (action : Action α) : Prop :=
  ∀ s : Session, (s.run action).1 ≠ .error .entryLost

namespace LosesNothing

variable {α β : Type}

theorem bind {x : Action α} {f : α → Action β} (hx : LosesNothing x)
    (hf : ∀ a, LosesNothing (f a)) : LosesNothing (x >>= f) := by
  intro s
  rcases hrun : s.run x with ⟨result, s'⟩
  cases result with
  | error e =>
    rw [run_bind_of_error s hrun]
    exact fun h => hx s ((congrArg Prod.fst hrun).trans (congrArg _ (Except.error.inj h)))
  | ok a =>
    rw [run_bind_of_ok s hrun]
    exact hf a s'

/-- An action that always gives something. -/
theorem of_ok {x : Action α} (h : ∀ s : Session, ∃ a, (s.run x).1 = .ok a) : LosesNothing x := by
  intro s
  obtain ⟨a, ha⟩ := h s
  rw [ha]
  simp

theorem pure (a : α) : LosesNothing (pure a : Action α) := of_ok fun _ => ⟨a, rfl⟩

theorem updateCompiler (f : Compiler → Compiler) : LosesNothing (updateCompiler f) :=
  of_ok fun _ => ⟨(), rfl⟩

theorem log (level : Level) (text : String) : LosesNothing (log level text) :=
  of_ok fun _ => ⟨(), rfl⟩

/-- Changing files fails only with a refusal. -/
theorem changeFiles (f : Files → Files × Except FileError Unit) : LosesNothing (changeFiles f) := by
  intro s
  rw [run_changeFiles]
  cases (f s.files).2 <;> simp [Except.mapError]

theorem readSource (path : Path) : LosesNothing (readSource path) := by
  intro s
  rw [run_readSource]
  unfold sourceText
  cases s.files.read path with
  | error e => simp
  | ok bytes =>
    simp only
    cases decoded? bytes <;> simp

theorem compile (source : String) : LosesNothing (compile source) := by
  intro s
  obtain ⟨told, hrun⟩ := run_compile s source
  rw [hrun]
  unfold pageFrom
  cases Document.parse source with
  | error e => simp
  | ok forest =>
    simp only
    cases (s.compiler.generator.generate s.files forest none).result <;> simp [Except.mapError]

theorem makePage (now : Time) (path : Path) (mtime : Time) :
    LosesNothing (makePage now path mtime) :=
  (readSource path).bind fun source => (compile source).bind fun html =>
    (updateCompiler _).bind fun _ => (updateCompiler _).bind fun _ => pure html

/-- A page that is there is written, or refused. -/
theorem writePage (target : Path) (html : String) : LosesNothing (writePage target html) :=
  (changeFiles _).bind fun _ => changeFiles _

end LosesNothing

section Found

variable {s : Session} {source : Path} (output : Option Path)

/-- Where there is no file, no page is asked for. -/
theorem ne_entryLost_of_absent (habsent : timeOf? s.files source = none) :
    (s.run (compileFile source output)).1 ≠ .error .entryLost := by
  intro h
  cases hresolved : s.files.unresolved? source with
  | some e =>
    rw [run_compileFile_of_unresolved s source output hresolved] at h
    exact Failure.noConfusion (Except.error.inj h)
  | none =>
    cases compileFile_course s source output with
    | absent e _ hreported hresult _ =>
      obtain rfl : e = .entryLost := Except.error.inj (hresult.symm.trans h)
      exact absurd (hreported hresolved) (by decide)
    | undated _ hfound | remembered _ _ _ hfound | unmade _ _ _ _ hfound | made _ _ _ _ hfound =>
      rw [habsent] at hfound
      exact absurd hfound (by simp)

/-- A page that is made does not go missing. -/
theorem ne_entryLost_of_miss {mtime : Binary64} (later : Time)
    (hfound : timeOf? s.files source = some mtime)
    (hdated : s.compiler.cache.isUndated s.now (s.files.resolve source) = false)
    {cache : Cache Path String}
    (hmiss : s.compiler.cache.isValid s.now (s.files.resolve source) (.real mtime)
      = (false, cache)) :
    (s.run (compileFileAfter later source output)).1 ≠ .error .entryLost := by
  obtain ⟨hresolved, content, executable, hlook⟩ := timeOf?_eq_some_iff.mp hfound
  have hpage := run_pageAfter_of_miss s _ (.real mtime) later hdated hmiss
  rw [run_compileFileAfter_of_file output later hresolved hlook, run_bind, hpage, ← run_bind,
    map_eq_pure_bind, bind_assoc]
  refine LosesNothing.bind (.makePage later _ _) (fun html => ?_) _
  rw [pure_bind]
  exact (LosesNothing.writePage _ html).bind fun _ => (LosesNothing.log _ _).bind fun _ => .pure _

/-- **A page is missing only where it has lapsed.** -/
theorem lapses_of_entryLost {later : Time}
    (h : (s.run (compileFileAfter later source output)).1 = .error .entryLost) :
    Lapses s source later := by
  cases hfound : timeOf? s.files source with
  | none =>
    rw [run_compileFileAfter_of_absent output later hfound] at h
    exact absurd h (ne_entryLost_of_absent output hfound)
  | some mtime =>
    cases hdated : s.compiler.cache.isUndated s.now (s.files.resolve source) with
    | true =>
      obtain ⟨hresolved, content, executable, hlook⟩ := timeOf?_eq_some_iff.mp hfound
      rw [run_compileFileAfter_of_file output later hresolved hlook,
        run_bind_of_error s (run_pageAfter_of_undated s _ _ later hdated)] at h
      exact Failure.noConfusion (Except.error.inj h)
    | false =>
      obtain ⟨e, hfind, hage, hnew⟩ | ⟨cache, hmiss⟩ :=
        Cache.isValid_cases s.compiler.cache s.now (s.files.resolve source) (.real mtime)
      · have hyoung : Cache.ageless s.now e = false := by
          simpa [Cache.isUndated, hfind] using hdated
        have hvalidated : Validated s source e :=
          ⟨mtime, hfound, hfind, Cache.within_iff.mpr ⟨hyoung, hage⟩, hnew⟩
        -- the entry was good at the first look, so it is the second that misses it
        cases hlater : Cache.ageless later e with
        | true =>
          have hundated : s.compiler.cache.isUndated later (s.files.resolve source) = true := by
            simp [Cache.isUndated, hfind, hlater]
          obtain ⟨hresolved, content, executable, hlook⟩ := timeOf?_eq_some_iff.mp hfound
          rw [run_compileFileAfter_of_file output later hresolved hlook, run_bind,
            run_pageAfter_of_hit s _ _ later hdated hfind hage hnew, if_pos hundated,
            run_bind_of_error s (s.run_throw _)] at h
          exact Failure.noConfusion (Except.error.inj h)
        | false =>
          refine ⟨e, hvalidated, hlater, ?_⟩
          by_contra hkept
          have hwithin := Cache.within_iff.mpr ⟨hlater, Bool.eq_false_iff.mpr hkept⟩
          rw [(run_compileFileAfter_of_kept output hvalidated hwithin).1] at h
          unfold published at h
          cases hresult : (publish s.files (pageTarget source output) e.value).2 <;>
            simp [hresult, Except.mapError, Except.map] at h
      · exact absurd h (ne_entryLost_of_miss output later hfound hdated hmiss)

end Found

/-- **A page that passed the test is used if and only if it is young enough at the
second look.**  Then it is what is published.  It is missing where it is too old by
then, and nowhere else; no file is written in that case. -/
theorem validated_page_used_iff {κ α : Type} [BEq κ] :
    (∀ (c : Cache κ α) (key : κ) (mtime now later : Time),
      ((Cache.Op.isValid key mtime).apply c now).1 = .held true →
        ∃ e, c.find? key = some e
          ∧ (((Cache.Op.get key).apply ((Cache.Op.isValid key mtime).apply c now).2 later).1
              = .found (some e.value) ↔ Time.Within c.ttl e.storedAt later)
          ∧ (((Cache.Op.get key).apply ((Cache.Op.isValid key mtime).apply c now).2 later).1
              = .found none ↔ Cache.ageless later e = false ∧ c.expired later e = true))
    ∧ ∀ (s : Session) (source : Path) (output : Option Path) (later : Time),
      (∀ e, Validated s source e → Time.Within s.compiler.cache.ttl e.storedAt later →
        (s.run (compileFileAfter later source output)).1
          = published s.files (pageTarget source output) e.value)
      ∧ ((s.run (compileFileAfter later source output)).1 = .error .entryLost
        ↔ Lapses s source later
          ∧ (s.files.makeDirectories (pageTarget source output).parent true).2 = .ok ())
      ∧ (Lapses s source later →
        (s.run (compileFileAfter later source output)).2.files
          = (s.files.makeDirectories (pageTarget source output).parent true).1) := by
  refine ⟨fun c key mtime now later h => Cache.get_of_isValid h later, ?_⟩
  intro s source output later
  refine ⟨?_, ⟨?_, ?_⟩, ?_⟩
  · exact fun e h hwithin => (run_compileFileAfter_of_kept output h hwithin).1
  · intro hlost
    obtain ⟨e, h, hlater, hold⟩ := lapses_of_entryLost output hlost
    refine ⟨⟨e, h, hlater, hold⟩, ?_⟩
    -- a directory that cannot be made is reported in place of the lost entry
    rw [(run_compileFileAfter_of_lapsed output h hlater hold).1] at hlost
    cases hmade : (s.files.makeDirectories (pageTarget source output).parent true).2 with
    | ok u => rfl
    | error e =>
      rw [hmade] at hlost
      exact Failure.noConfusion (Except.error.inj hlost)
  · intro hlapses
    obtain ⟨⟨e, h, hlater, hold⟩, hmade⟩ := hlapses
    rw [(run_compileFileAfter_of_lapsed output h hlater hold).1, hmade]
    rfl
  · intro hlapses
    obtain ⟨e, h, hlater, hold⟩ := hlapses
    exact (run_compileFileAfter_of_lapsed output h hlater hold).2

/-- A compiler that has made the page of `a.tml` a minute ago, which is as long as
it remembers it. -/
def minuteOld : Session :=
  { ((minifying (holding [(["a.tml"], "p: one".toUTF8, 10)])).run
      (compileFile (inHere ["a.tml"]) none)).2 with now := .whole 60 }

theorem minuteOld_validated :
    Validated minuteOld (inHere ["a.tml"])
      ⟨"<p>one</p>", .whole 0, some (.real (Binary64.ofRatio false 10 1))⟩ := by
  refine ⟨Binary64.ofRatio false 10 1, by decide +kernel, by decide +kernel,
    ⟨.whole 60, by decide +kernel, by decide +kernel⟩, by decide +kernel⟩

/-- At the same second the page is used; a second later it is missing. -/
theorem validated_page_used_iff_minute_old :
    (∃ e, ((Cache.empty 1 (.whole 60) : Cache String Nat).set (.whole 0) "a" 1 none).find? "a"
        = some e ∧ e.value = 1 ∧ Time.Within (.whole 60) e.storedAt (.whole 60))
      ∧ (minuteOld.run (compileFileAfter (.whole 60) (inHere ["a.tml"])
          (some (inHere ["b.html"])))).1 = .ok (inHere ["b.html"])
      ∧ (minuteOld.run (compileFileAfter (.whole 61) (inHere ["a.tml"])
          (some (inHere ["b.html"])))).1 = .error .entryLost := by
  obtain ⟨hcache, hall⟩ := validated_page_used_iff (κ := String) (α := Nat)
  obtain ⟨hused, -, -⟩ :=
    hall minuteOld (inHere ["a.tml"]) (some (inHere ["b.html"])) (.whole 60)
  obtain ⟨-, hlost, -⟩ :=
    hall minuteOld (inHere ["a.tml"]) (some (inHere ["b.html"])) (.whole 61)
  refine ⟨?_, ?_,
    hlost.mpr ⟨⟨_, minuteOld_validated, by decide +kernel, by decide +kernel⟩, ?_⟩⟩
  · obtain ⟨e, hfind, hfound, -⟩ := hcache
      ((Cache.empty 1 (.whole 60)).set (.whole 0) "a" 1 none) "a" (.whole 7) (.whole 59) (.whole 60)
      (by decide +kernel)
    obtain rfl : (⟨1, .whole 0, none⟩ : Cache.Entry Nat) = e :=
      Option.some.inj ((show _ = some _ by decide +kernel).symm.trans hfind)
    exact ⟨_, hfind, rfl, hfound.mp (by decide +kernel)⟩
  · rw [hused _ minuteOld_validated ⟨.whole 60, by decide +kernel, by decide +kernel⟩]
    decide +kernel
  · decide +kernel

/-- **The clock can go on between the test and the lookup.**  The entry is valid at
60 and not found at 61, and the compiler has nothing to write. -/
theorem validated_page_lapses :
    (Time.whole 61).before (.whole 60) = false
      ∧ ((Cache.Op.isValid "a" (.whole 7)).apply
          ((Cache.empty 1 (.whole 60) : Cache String Nat).set (.whole 0) "a" 1 (some (.whole 7)))
          (.whole 60)).1 = .held true
      ∧ ((Cache.Op.get "a").apply ((Cache.Op.isValid "a" (.whole 7)).apply
          ((Cache.empty 1 (.whole 60) : Cache String Nat).set (.whole 0) "a" 1 (some (.whole 7)))
          (.whole 60)).2 (.whole 61)).1 = .found none
      ∧ (minuteOld.run (compileFileAfter (.whole 61) (inHere ["a.tml"]) none)).1
          = .error .entryLost := by
  refine ⟨by decide, by decide +kernel, by decide +kernel, ?_⟩
  decide +kernel

end Compiler

end Offside
