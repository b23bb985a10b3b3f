/-
  Offside.Proofs.CompilerLife
  ───────────────────────────
  **A COMPILER FROM ITS FIRST CALL TO ITS LAST.**

  A compiler is used in any order and disposed of at any time (`Deed`), while the
  clock is set and others change the files.  Two things hold all along.

  The statistics add up (`statistics_add_up`): the pages that were remembered are
  the hits of the cache, which never misses, and every page that was made was made
  for a file that was not remembered or asked for directly.  A call can fail between
  any two of its counts; `Balanced` holds after each of its courses.

  Disposal is final (`dispose_is_final`).  A remembered page is published without
  the generator, so it is not enough that the generator does nothing any more: the
  memory is empty and stays empty (`Spent`), and a call changes nothing at all but
  what is told on the error output.
-/
import Offside.Proofs.CacheTransparency
import Offside.Proofs.FailedCalls

namespace Offside.Compiler

open Session Transparency Directory

/-! ## §1. Deeds. -/

/-- What is done with a compiler, to its clock and to the files, up to its disposal
and after it. -/
inductive Deed where
  | operate (op : Operation)
  | dispose

/-- The session after a deed, whether it failed or not. -/
def Deed.perform (s : Session) : Deed → Session
  | .operate op => op.perform s
  | .dispose => (s.run Compiler.dispose).2

/-- The session after some deeds. -/
def after (s : Session) (deeds : List Deed) : Session := deeds.foldl Deed.perform s

/-- Whether a deed is a source that was compiled directly and gave a page. -/
def Deed.givesPage (s : Session) : Deed → Bool
  | .operate (.compile source) => (s.run (compile source)).1.isOk
  | _ => false

/-- How many sources were compiled directly and gave a page. -/
def directPages : Session → List Deed → Nat
  | _, [] => 0
  | s, deed :: rest => (if deed.givesPage s then 1 else 0) + directPages (deed.perform s) rest

/-! ## §2. The statistics add up. -/

/-- What a compiler has counted agrees with what its cache has counted, if some
sources were compiled directly and gave a page. -/
structure Balanced (direct : Nat) (s : Session) : Prop where
  hits : s.compiler.stats.cacheHits = s.compiler.cache.hits
  misses : s.compiler.cache.misses = 0
  compilations : s.compiler.stats.compilations = s.compiler.stats.cacheMisses + direct

/-- Testing an entry counts nothing. -/
theorem counts_isValid {c cache : Cache Path String} {now mtime : Time} {key : Path}
    (h : c.isValid now key mtime = (false, cache)) :
    cache.hits = c.hits ∧ cache.misses = c.misses := by
  rcases Cache.isValid_eq_false h with rfl | ⟨e, -, -, rfl⟩
  · exact ⟨rfl, rfl⟩
  · exact ⟨rfl, rfl⟩

/-- Nor does storing one. -/
theorem counts_set (c : Cache Path String) (now : Time) (key : Path) (html : String)
    (mtime : Option Time) :
    (c.set now key html mtime).hits = c.hits ∧ (c.set now key html mtime).misses = c.misses := by
  unfold Cache.set
  simp only
  split
  · exact ⟨rfl, rfl⟩
  · split <;> exact ⟨rfl, rfl⟩

namespace Balanced

variable {direct : Nat} {s : Session}

theorem tell (h : Balanced direct s) (text : String) : Balanced direct (s.tell text) :=
  ⟨h.hits, h.misses, h.compilations⟩

/-- **Every course of a call** keeps the balance. -/
theorem course (h : Balanced direct s) {source : Path} {output : Option Path}
    {result : Except Failure Path} {s' : Session} (hcourse : Course s source output result s') :
    Balanced direct s' := by
  cases hcourse with
  | absent e habsent hreported hresult hsession => exact hsession ▸ h
  | undated mtime hfound hundated hresult hsession => exact hsession ▸ h
  | remembered mtime entry told hfound hdated hfind hage hnew hresult hsession =>
    -- the lookup after the test finds the entry, so both count a hit
    have hget : (s.compiler.cache.get s.now (s.files.resolve source)).2
        = { s.compiler.cache.promote (s.files.resolve source) entry with
            hits := s.compiler.cache.hits + 1 } := by
      simp [Cache.get, hfind, hage]
    rw [hsession, hget]
    exact ⟨congrArg (· + 1) h.hits, h.misses, h.compilations⟩
  | unmade mtime cache e told hfound hdated hmiss hpage hresult hsession =>
    obtain ⟨hhits, hmisses⟩ := counts_isValid hmiss
    rw [hsession]
    exact ⟨h.hits.trans hhits.symm, hmisses.trans h.misses, h.compilations⟩
  | made mtime cache html told hfound hdated hmiss hpage hresult hsession =>
    obtain ⟨hhits, hmisses⟩ := counts_isValid hmiss
    obtain ⟨hhits', hmisses'⟩ := counts_set cache s.now (s.files.resolve source) html
      (some (.real mtime))
    rw [hsession]
    refine ⟨h.hits.trans (hhits'.trans hhits).symm, (hmisses'.trans hmisses).trans h.misses, ?_⟩
    show s.compiler.stats.compilations + 1 = s.compiler.stats.cacheMisses + 1 + direct
    have := h.compilations
    omega

theorem compileFile (h : Balanced direct s) (source : Path) (output : Option Path) :
    Balanced direct (s.run (compileFile source output)).2 :=
  h.course (compileFile_course s source output)

/-- The files of a directory keep it, one after the other, also if one of them ends
the work. -/
theorem compileDirectory (h : Balanced direct s) (source : Path) (output : Option Path)
    (deep : Bool) : Balanced direct (s.run (compileDirectory source output deep)).2 := by
  by_cases hlook : s.files.look source = .ok (some .directory)
  · rw [run_compileDirectory_of_directory s source output deep hlook]
    refine Walk.walkDown_preserves deep _ s source output ({} : Compiler.Report)
      (fun s report file target h => ?_) h
    obtain ⟨told, htold⟩ := run_compileEntry_session s report file target
    rw [htold]
    exact (h.compileFile file _).tell told
  · obtain ⟨e, hrun⟩ := run_compileDirectory_of_other s source output deep hlook
    rw [hrun]
    exact h

theorem compileProject (h : Balanced direct s) (root source output : Path) :
    Balanced direct (s.run (compileProject root source output)).2 := by
  by_cases hlook : s.files.look (root.join source) = .ok (some .directory)
  · rw [run_compileProject_of_directory s root source output hlook]
    exact h.compileDirectory _ _ true
  · obtain ⟨e, hrun⟩ := run_compileProject_of_other s root source output hlook
    rw [hrun]
    exact h

/-- A source that is compiled directly counts if it gives a page. -/
theorem compile (h : Balanced direct s) (source : String) :
    Balanced (direct + if (s.run (compile source)).1.isOk then 1 else 0)
      (s.run (compile source)).2 := by
  obtain ⟨told, hrun⟩ := run_compile s source
  rw [hrun]
  cases pageFrom s.compiler.generator s.files source with
  | error e => exact ⟨h.hits, h.misses, h.compilations⟩
  | ok html =>
    refine ⟨h.hits, h.misses, ?_⟩
    show s.compiler.stats.compilations + 1 = s.compiler.stats.cacheMisses + (direct + 1)
    have := h.compilations
    omega

/-- **One deed** keeps the balance. -/
theorem deed (h : Balanced direct s) (d : Deed) :
    Balanced (direct + if d.givesPage s then 1 else 0) (d.perform s) := by
  cases d with
  | dispose => exact ⟨h.hits, h.misses, h.compilations⟩
  | operate op =>
    cases op with
    | compile source => exact h.compile source
    | compileFile source output => exact h.compileFile source output
    | compileDirectory source output deep => exact h.compileDirectory source output deep
    | compileProject root source output => exact h.compileProject root source output
    | cleanupCache =>
      show Balanced direct (s.run cleanupCache).2
      obtain ⟨told, hrun | hrun⟩ := run_cleanupCache_session s
      · rw [hrun]
        exact h.tell told
      · rw [hrun]
        exact ⟨h.hits, h.misses, h.compilations⟩
    | clearCache => exact ⟨h.hits, h.misses, h.compilations⟩
    | setClock now => exact ⟨h.hits, h.misses, h.compilations⟩
    | changeFiles change => exact ⟨h.hits, h.misses, h.compilations⟩

/-- **Any number of deeds** keeps it. -/
theorem after (h : Balanced direct s) (deeds : List Deed) :
    Balanced (direct + directPages s deeds) (after s deeds) := by
  -- the count so far is part of the invariant, and so it varies along the induction
  induction deeds generalizing s direct with
  | nil => exact h
  | cons d rest ih =>
    unfold directPages
    rw [← Nat.add_assoc]
    exact ih (h.deed d)

end Balanced

/-- **The statistics add up.**  Whatever was done with a new compiler, the pages it
found remembered are the hits of its cache, its cache has counted no miss, and it has
made one page for each file that was not remembered and for each source that was
compiled directly and gave a page. -/
theorem statistics_add_up {start : Session} (hstats : start.compiler.stats = {})
    (hhits : start.compiler.cache.hits = 0) (hmisses : start.compiler.cache.misses = 0)
    (deeds : List Deed) :
    (after start deeds).compiler.stats.cacheHits = (after start deeds).compiler.cache.hits
      ∧ (after start deeds).compiler.cache.misses = 0
      ∧ (after start deeds).compiler.stats.compilations
          = (after start deeds).compiler.stats.cacheMisses + directPages start deeds := by
  have hnew : Balanced 0 start := by
    refine ⟨?_, hmisses, ?_⟩
    · rw [hstats, hhits]
    · rw [hstats]
  obtain ⟨h₁, h₂, h₃⟩ := hnew.after deeds
  rw [Nat.zero_add] at h₃
  exact ⟨h₁, h₂, h₃⟩

/-- A compiler that has compiled nothing yet, three source files, of which one is not
text, and a directory. -/
def newCompiler : Session :=
  minifying (holding [(["a.tml"], "p: one".toUTF8, 10), (["b.tml"], "p: two".toUTF8, 11),
    (["c.tml"], ⟨#[255]⟩, 12), (["d", "x"], "".toUTF8, 13)])

/-- A page is made and found again, pushed out by one that cannot be written, found
again in its place, and too old; a file is not text; of three sources that are compiled
directly one is a page, one is not, and one comes too late. -/
def workday : List Deed :=
  [.operate (.compileFile (inHere ["a.tml"]) none),
   .operate (.compileFile (inHere ["a.tml"]) none),
   .operate (.compileFile (inHere ["b.tml"]) (some (inHere ["d"]))),
   .operate (.compileFile (inHere ["b.tml"]) (some (inHere ["d"]))),
   .operate (.compile "p: three"),
   .operate (.compile "p["),
   .operate (.setClock (.whole 100)),
   .operate (.compileFile (inHere ["b.tml"]) none),
   .operate (.compileFile (inHere ["c.tml"]) none),
   .dispose,
   .operate (.compile "p: four")]

theorem statistics_add_up_workday :
    directPages newCompiler workday = 1
      ∧ (after newCompiler workday).compiler.stats.cacheHits = 2
      ∧ (after newCompiler workday).compiler.stats.cacheMisses = 3
      ∧ (after newCompiler workday).compiler.cache.hits = 2
      ∧ (after newCompiler workday).compiler.cache.misses = 0
      ∧ (after newCompiler workday).compiler.stats.compilations = 3 + 1 := by
  obtain ⟨hhits, hmisses, hcompilations⟩ :=
    statistics_add_up (show newCompiler.compiler.stats = {} from rfl) rfl rfl workday
  have hdirect : directPages newCompiler workday = 1 := by decide +kernel
  have hfound : (after newCompiler workday).compiler.stats.cacheHits = 2 := by decide +kernel
  have hmade : (after newCompiler workday).compiler.stats.cacheMisses = 3 := by decide +kernel
  rw [hfound] at hhits
  rw [hmade, hdirect] at hcompilations
  exact ⟨hdirect, hfound, hmade, hhits.symm, hmisses, hcompilations⟩

/-! ## §3. Disposal is final. -/

section Disposed

variable {g : Generator} {files : Files} {source : String}

/-- Why a source gives no page any more: for a reason of its own, or else because the
generator was disposed of. -/
def lastWord (source : String) : Failure :=
  match Document.parse source with
  | .error e => .source e
  | .ok _ => .generate .disposed

theorem generate_of_disposed (h : g.disposed = true) (files : Files) (forest : List Node)
    (options : Option Options) : g.generate files forest options = { result := .error .disposed } :=
  if_pos h

theorem pageFrom_of_disposed (h : g.disposed = true) :
    pageFrom g files source = .error (lastWord source) := by
  unfold pageFrom lastWord
  cases Document.parse source with
  | error e => rfl
  | ok forest =>
    simp only [generate_of_disposed h]
    rfl

/-- A generator that was disposed of starts no formatter, and has one reason to
fail. -/
theorem steady_of_disposed (h : g.disposed = true) : Steady g where
  fails files source e hpage := by
    rw [pageFrom_of_disposed h] at hpage
    unfold lastWord at hpage
    cases hparse : Document.parse source with
    | error e' => simp [hparse] at hpage
    | ok forest => simpa [hparse] using hpage.symm
  files files source := by
    unfold filesAfter
    cases Document.parse source with
    | error e => rfl
    | ok forest =>
      simp only [generate_of_disposed h]
      rfl

theorem pageOfFile_of_disposed (h : g.disposed = true) (files : Files) (path : Path) :
    ∃ e, pageOfFile g files path = .error e := by
  unfold pageOfFile
  cases sourceText files path with
  | error e => exact ⟨e, rfl⟩
  | ok text => exact ⟨lastWord text, pageFrom_of_disposed h⟩

end Disposed

/-- A compiler that gives no page any more: it makes none, and it remembers none. -/
structure Spent (t : Session) : Prop where
  disposed : t.compiler.generator.disposed = true
  empty : t.compiler.cache.entries = []

/-- The path of a file can be used, and if there is a file it is text. -/
def Readable (files : Files) (file : Path) : Prop :=
  files.unresolved? file = none
    ∧ ∀ v ∈ files.version? (files.placeOf (files.resolve file)), (decoded? v.1).isSome

/-- What comes of a directory: nothing but what is told, and a report, if there is one,
that lists every source which is found there as failed; in a tree these are the covered
files, in their order.  There is a report if the directory can be walked down and the
files can be read. -/
structure Barren (t : Session) (source : Path) (deep : Bool) (x : Action Compiler.Report) : Prop where
  session : ∃ told, (t.run x).2 = t.tell told
  report : ∀ report, (t.run x).1 = .ok report → report.compiled = []
    ∧ ∀ file, Walk.Found t.files deep source file ↔ file ∈ report.failed.map Prod.fst
  tree : IsTree t.files → ∀ report, (t.run x).1 = .ok report →
    report.failed.map Prod.fst = t.files.filesBelow source deep isSourceName
      ∧ ∀ file, Covered t.files source deep file ↔ file ∈ report.failed.map Prod.fst
  returns : t.files.look source = .ok (some .directory) →
    Walk.walkable t.files deep Files.maxLevels source = true →
    (∀ file, Walk.Found t.files deep source file → Readable t.files file) →
      ∃ report, (t.run x).1 = .ok report

theorem Barren.of_error {t : Session} {source : Path} {deep : Bool}
    {x : Action Compiler.Report} {e : Failure}
    (hlook : t.files.look source ≠ .ok (some .directory)) (hrun : t.run x = (.error e, t)) :
    Barren t source deep x where
  session := ⟨"", by rw [hrun, tell_empty]⟩
  report report hresult := by
    rw [hrun] at hresult
    exact absurd hresult (by simp)
  tree _ report hresult := by
    rw [hrun] at hresult
    exact absurd hresult (by simp)
  returns hdirectory := absurd hdirectory hlook

namespace Spent

variable {t : Session}

theorem tell (h : Spent t) (text : String) : Spent (t.tell text) := ⟨h.disposed, h.empty⟩

theorem of_tell {t' : Session} {told : String} (h : Spent t) (ht : t' = t.tell told) :
    Spent t' ∧ t'.compiler.stats = t.compiler.stats := by
  subst ht
  exact ⟨h.tell told, rfl⟩

theorem find?_eq_none (h : Spent t) (path : Path) : t.compiler.cache.find? path = none := by
  unfold Cache.find?
  rw [h.empty]
  rfl

/-- A source gives no page, and all that comes of it is told. -/
theorem compile (h : Spent t) (source : String) :
    ∃ told, t.run (compile source) = (.error (lastWord source), t.tell told) := by
  obtain ⟨told, hrun⟩ := run_compile t source
  rw [pageFrom_of_disposed h.disposed, (steady_of_disposed h.disposed).files] at hrun
  exact ⟨told, hrun⟩

/-- **A file** gives no page, whether there was one or not, and all that comes of it is
told. -/
theorem compileFile (h : Spent t) (source : Path) (output : Option Path) :
    ∃ e told, t.run (compileFile source output) = (.error e, t.tell told)
      ∧ (Readable t.files source → e.isReported = true) := by
  cases compileFile_course t source output with
  | absent e habsent hreported hresult hsession =>
    exact ⟨e, "", Prod.ext hresult (hsession.trans (tell_empty t).symm),
      fun hread => hreported hread.1⟩
  | undated mtime hfound hundated hresult hsession =>
    rw [Cache.isUndated_of_empty h.empty] at hundated
    exact absurd hundated (by simp)
  | remembered mtime entry told hfound hdated hfind hage hnew hresult hsession =>
    rw [h.find?_eq_none] at hfind
    exact absurd hfind (by simp)
  | unmade mtime cache e told hfound hdated hmiss hpage hresult hsession =>
    have hsteady := steady_of_disposed h.disposed
    -- there was no entry to drop, and no formatter was asked
    have hcache : cache = t.compiler.cache := by
      rcases Cache.isValid_eq_false hmiss with hsame | ⟨entry, hfind, -, -⟩
      · exact hsame
      · rw [h.find?_eq_none] at hfind
        exact absurd hfind (by simp)
    rw [hcache, hsteady.leavesFiles.filesAfterFile_eq] at hsession
    refine ⟨e, told, Prod.ext hresult hsession, fun hread => ?_⟩
    obtain ⟨-, content, executable, hlook⟩ := timeOf?_eq_some_iff.mp hfound
    have hstat := Files.look_eq_ok_some hlook
    exact hsteady.pageOfFile_reported hstat (hread.2 _ (Files.version?_of_stat hstat)) hpage
  | made mtime cache html told hfound hdated hmiss hpage hresult hsession =>
    obtain ⟨e, herror⟩ := pageOfFile_of_disposed h.disposed t.files (t.files.resolve source)
    rw [herror] at hpage
    exact absurd hpage (by simp)

/-- A file of a directory is listed as failed, or ends the work. -/
theorem compileEntry (h : Spent t) (report : Compiler.Report) (file target : Path) :
    ∃ e told, (t.run (compileEntry report file target)
          = (.ok { report with failed := report.failed ++ [(file, e)] }, t.tell told)
        ∨ t.run (compileEntry report file target) = (.error e, t.tell told)
          ∧ ¬ Readable t.files file) := by
  obtain ⟨e, told, hrun, hreported⟩ := h.compileFile file (some target)
  by_cases hcase : e.isReported = true
  · obtain ⟨told', hentry⟩ : ∃ told', t.run (Compiler.compileEntry report file target) = _ :=
      run_compileEntry_of_reported hrun hcase
    exact ⟨e, told ++ told', .inl (by rw [hentry, tell_tell])⟩
  · have hentry : t.run (Compiler.compileEntry report file target) = _ :=
      run_compileEntry_of_unreported hrun (by simpa using hcase)
    exact ⟨e, told, .inr ⟨hentry, fun hread => hcase (hreported hread)⟩⟩

end Spent

/-- What comes of a part of a walk: nothing but what is told, and the files that are found
there join those that failed, if the walk goes on.  It does if it can pass and the files
can be read. -/
structure Fruitless (t : Session) (found : Path → Prop) (passes : Prop) (report : Compiler.Report)
    (x : Action Compiler.Report) : Prop where
  session : ∃ told, (t.run x).2 = t.tell told
  listed : ∀ report', (t.run x).1 = .ok report' → report'.compiled = report.compiled
    ∧ ∃ files, report'.failed.map Prod.fst = report.failed.map Prod.fst ++ files
      ∧ ∀ file, found file ↔ file ∈ files
  returns : passes → (∀ file, found file → Readable t.files file) →
    ∃ report', (t.run x).1 = .ok report'

namespace Fruitless

variable {t : Session} {found : Path → Prop} {passes : Prop} {report : Compiler.Report}
  {x : Action Compiler.Report}

/-- There is nothing to be found. -/
theorem nothing (hnone : ∀ file, ¬ found file) (hrun : t.run x = (.ok report, t)) :
    Fruitless t found passes report x where
  session := ⟨"", by rw [hrun, tell_empty]⟩
  listed report' hresult := by
    rw [hrun] at hresult
    injection hresult with hresult
    subst hresult
    exact ⟨rfl, [], by simp, by simpa using hnone⟩
  returns _ _ := ⟨report, by rw [hrun]⟩

/-- The walk cannot pass. -/
theorem stopped {e : Failure} (hpasses : ¬ passes) (hrun : t.run x = (.error e, t)) :
    Fruitless t found passes report x where
  session := ⟨"", by rw [hrun, tell_empty]⟩
  listed report' hresult := by
    rw [hrun] at hresult
    exact absurd hresult (by simp)
  returns h := absurd h hpasses

/-- One file was found. -/
theorem single (h : Spent t) (report : Compiler.Report) (file target : Path) :
    Fruitless t (· = file) passes report (compileEntry report file target) := by
  obtain ⟨e, told, hrun | ⟨hrun, hunreadable⟩⟩ := h.compileEntry report file target
  · refine ⟨⟨told, by rw [hrun]⟩, ?_, fun _ _ => ⟨_, by rw [hrun]⟩⟩
    intro report' hresult
    rw [hrun] at hresult
    injection hresult with hresult
    subst hresult
    exact ⟨rfl, [file], by simp, by simp⟩
  · refine ⟨⟨told, by rw [hrun]⟩, ?_, fun _ hread => absurd (hread file rfl) hunreadable⟩
    intro report' hresult
    rw [hrun] at hresult
    exact absurd hresult (by simp)

theorem congr {found' : Path → Prop} {passes' : Prop} (h : Fruitless t found passes report x)
    (hfound : ∀ file, found' file ↔ found file) (hpasses : passes' → passes) :
    Fruitless t found' passes' report x where
  session := h.session
  listed report' hresult := by
    obtain ⟨hcompiled, files, hfailed, hfiles⟩ := h.listed report' hresult
    exact ⟨hcompiled, files, hfailed, fun file => (hfound file).trans (hfiles file)⟩
  returns hpass hread :=
    h.returns (hpasses hpass) fun file hfile => hread file ((hfound file).mpr hfile)

/-- **One name after the other**: what is told in between keeps the compiler spent, and the
files as they are. -/
theorem along {fs : Files} {act : Compiler.Report → String → Action Compiler.Report}
    {foundAt : String → Path → Prop} {passesAt : String → Prop}
    (hact : ∀ t report name, Spent t → t.files = fs →
      Fruitless t (foundAt name) (passesAt name) report (act report name))
    (names : List String) (h : Spent t) (hfiles : t.files = fs) (report : Compiler.Report) :
    Fruitless t (fun file => ∃ name ∈ names, foundAt name file) (∀ name ∈ names, passesAt name)
      report (names.foldlM act report) := by
  induction names generalizing t report with
  | nil => exact .nothing (by simp) rfl
  | cons name rest ih =>
    have hname := hact t report name h hfiles
    obtain ⟨told, hsession⟩ := hname.session
    rcases hrun : t.run (act report name) with ⟨result, t'⟩
    rw [hrun] at hsession
    replace hsession : t' = t.tell told := hsession
    subst hsession
    cases result with
    | error e =>
      -- one name ends it all, and then that name cannot be passed
      have hwhole : t.run ((name :: rest).foldlM act report) = (.error e, t.tell told) := by
        rw [List.foldlM_cons, run_bind_of_error t hrun]
      refine ⟨⟨told, by rw [hwhole]⟩, fun report' hresult => ?_, fun hpass hread => ?_⟩
      · rw [hwhole] at hresult
        exact absurd hresult (by simp)
      · obtain ⟨report', hresult⟩ := hname.returns (hpass name List.mem_cons_self)
          fun file hfile => hread file ⟨name, List.mem_cons_self, hfile⟩
        rw [hrun] at hresult
        exact absurd hresult (by simp)
    | ok report₁ =>
      have hwhole : t.run ((name :: rest).foldlM act report)
          = (t.tell told).run (rest.foldlM act report₁) := by
        rw [List.foldlM_cons, run_bind_of_ok t hrun]
      -- a session that has told something more is still spent and has the same files
      have hrest := ih (h.tell told) hfiles report₁
      refine ⟨?_, fun report' hresult => ?_, fun hpass hread => ?_⟩
      · obtain ⟨told', hafter⟩ := hrest.session
        exact ⟨told ++ told', by rw [hwhole, hafter, tell_tell]⟩
      · obtain ⟨hcompiled₁, files₁, hfailed₁, hfiles₁⟩ := hname.listed report₁ (by rw [hrun])
        rw [hwhole] at hresult
        obtain ⟨hcompiled, files, hfailed, hfiles⟩ := hrest.listed report' hresult
        refine ⟨hcompiled.trans hcompiled₁, files₁ ++ files, ?_, fun file => ?_⟩
        · rw [hfailed, hfailed₁, List.append_assoc]
        · simp [← hfiles₁, ← hfiles]
      · rw [hwhole]
        exact hrest.returns (fun name' hname' => hpass name' (List.mem_cons_of_mem name hname'))
          fun file hfile => hread file (hfile.imp fun _ hx => ⟨List.mem_cons_of_mem name hx.1, hx.2⟩)

theorem of_run {y : Action Compiler.Report} (h : Fruitless t found passes report y)
    (hrun : t.run x = t.run y) : Fruitless t found passes report x := by
  obtain ⟨hsession, hlisted, hreturns⟩ := h
  rw [← hrun] at hsession hlisted hreturns
  exact ⟨hsession, hlisted, hreturns⟩

/-- **One name** is a file, or a directory, or neither. -/
theorem visit {fs : Files} {deep : Bool}
    {down : Path → Option Path → Compiler.Report → Action Compiler.Report}
    {below : Path → Bool}
    (hdown : ∀ t source output report, Spent t → t.files = fs →
      Fruitless t (Walk.Found fs deep source) (below source = true) report
        (down source output report))
    (source : Path) (output : Option Path) (h : Spent t) (hfiles : t.files = fs)
    (report : Compiler.Report) (name : String) :
    Fruitless t (Walk.FoundAt fs deep source name)
      (Walk.passable fs deep below source name = true) report
      (visit deep compileEntry down source output report name) := by
  subst hfiles
  have hrun := Walk.run_visit deep compileEntry t source output report down name
  unfold Walk.FoundAt Walk.passable
  match hlook : t.files.look (source.child name) with
  | .error e =>
    rw [hlook] at hrun
    exact .stopped (by simp) hrun
  | .ok none =>
    rw [hlook] at hrun
    exact .nothing (fun _ => id) hrun
  | .ok (some .directory) =>
    rw [hlook] at hrun
    cases deep with
    | false => exact .nothing (by simp) hrun
    | true =>
      exact ((hdown t (source.child name) _ report h rfl).of_run hrun).congr (by simp) (by simp)
  | .ok (some (.file ..)) =>
    rw [hlook] at hrun
    by_cases hname : isSourceName name = true
    · simp only [if_pos hname] at hrun
      exact ((single h report _ _).of_run hrun).congr (by simp [hname]) id
    · simp only [if_neg hname] at hrun
      exact .nothing (by simp [hname]) hrun

/-- **A directory** and those below it that are gone down into. -/
theorem walkDown (deep : Bool) (levels : Nat) (source : Path) (output : Option Path) {t : Session}
    (h : Spent t) (report : Compiler.Report) :
    Fruitless t (Walk.Found t.files deep source)
      (Walk.walkable t.files deep levels source = true) report
      (walkDown deep compileEntry levels source output report) := by
  induction levels generalizing t source output report with
  | zero => exact .stopped (by simp [Walk.walkable]) rfl
  | succ levels ih =>
    have hrun := Walk.run_walkDown deep compileEntry t source output report levels
    cases hlist : t.files.list source with
    | error e =>
      rw [hlist] at hrun
      exact .stopped (by simp [Walk.walkable, hlist]) hrun
    | ok names =>
      rw [hlist] at hrun
      have hdown : ∀ t' source output report, Spent t' → t'.files = t.files →
          Fruitless t' (Walk.Found t.files deep source)
            (Walk.walkable t.files deep levels source = true) report
            (Compiler.walkDown deep compileEntry levels source output report) :=
        fun t' source output report hspent hfiles => hfiles ▸ ih source output hspent report
      have hnames := along (fun t' report name hspent hfiles =>
        visit hdown source output hspent hfiles report name) names h rfl report
      refine (hnames.of_run hrun).congr (fun file => Walk.found_iff hlist) ?_
      intro hpasses
      simpa [Walk.walkable, hlist] using hpasses

end Fruitless

namespace Spent

variable {t : Session}

/-- In a tree the files that fail are the covered ones, in their order. -/
theorem failed_of_tree (h : Spent t) {source : Path} {output : Option Path} {deep : Bool}
    (hlook : t.files.look source = .ok (some .directory)) (htree : IsTree t.files)
    {report : Compiler.Report}
    (hresult : (t.run (walkDown deep Compiler.compileEntry Files.maxLevels source output {})).1
      = .ok report) (hcompiled : report.compiled = []) :
    report.failed.map Prod.fst = t.files.filesBelow source deep isSourceName := by
  have hstat := Files.look_eq_ok_some hlook
  have hleaves := (steady_of_disposed h.disposed).leavesFiles
  have hfollows := (workedOn_treats hleaves source output deep).walkDown_follows htree
    (Files.hasNull_of_stat hstat) {} ⟨rfl, Files.Kept.refl _ _ _⟩ hstat Files.maxLevels
  obtain ⟨good, bad, hgood, hbad, -, hsub, hperm⟩ :=
    entries_listed _ (hfollows.run_eq (Prod.ext hresult rfl))
  -- nothing was compiled, so the failed files are all of them
  have hnone : good = [] := by simpa [hcompiled] using hgood
  subst hnone
  rw [hbad, hsub.eq_of_length hperm.length_eq]
  rfl

theorem compileDirectory (h : Spent t) (source : Path) (output : Option Path) (deep : Bool) :
    Barren t source deep (compileDirectory source output deep) := by
  by_cases hlook : t.files.look source = .ok (some .directory)
  · have hrun := run_compileDirectory_of_directory t source output deep hlook
    obtain ⟨hsession, hlisted, hreturns⟩ := Fruitless.walkDown deep Files.maxLevels source output h {}
    refine ⟨by rw [hrun]; exact hsession, ?_, ?_, fun _ => by rw [hrun]; exact hreturns⟩
    · intro report hresult
      rw [hrun] at hresult
      obtain ⟨hcompiled, files, hfailed, hfound⟩ := hlisted report hresult
      refine ⟨hcompiled, fun file => ?_⟩
      rw [hfound, hfailed]
      rfl
    · intro htree report hresult
      rw [hrun] at hresult
      have hfailed := h.failed_of_tree hlook htree hresult (hlisted report hresult).1
      refine ⟨hfailed, fun file => ?_⟩
      rw [hfailed, mem_filesBelow]
  · obtain ⟨e, hrun⟩ := run_compileDirectory_of_other t source output deep hlook
    exact Barren.of_error hlook hrun

theorem compileProject (h : Spent t) (root source output : Path) :
    Barren t (root.join source) true (compileProject root source output) := by
  by_cases hlook : t.files.look (root.join source) = .ok (some .directory)
  · have hviews := h.compileDirectory (root.join source) (some (root.join output)) true
    have hrun := run_compileProject_of_directory t root source output hlook
    exact ⟨by rw [hrun]; exact hviews.session, by rw [hrun]; exact hviews.report,
      by rw [hrun]; exact hviews.tree, by rw [hrun]; exact hviews.returns⟩
  · obtain ⟨e, hrun⟩ := run_compileProject_of_other t root source output hlook
    exact Barren.of_error hlook hrun

/-- **One deed** leaves a spent compiler spent, and its statistics alone. -/
theorem deed (h : Spent t) (d : Deed) :
    Spent (d.perform t) ∧ (d.perform t).compiler.stats = t.compiler.stats := by
  cases d with
  | dispose => exact ⟨⟨rfl, rfl⟩, rfl⟩
  | operate op =>
    cases op with
    | compile source =>
      obtain ⟨told, hrun⟩ := h.compile source
      exact h.of_tell (congrArg Prod.snd hrun)
    | compileFile source output =>
      obtain ⟨e, told, hrun, -⟩ := h.compileFile source output
      exact h.of_tell (congrArg Prod.snd hrun)
    | compileDirectory source output deep =>
      obtain ⟨told, hrun⟩ := (h.compileDirectory source output deep).session
      exact h.of_tell hrun
    | compileProject root source output =>
      obtain ⟨told, hrun⟩ := (h.compileProject root source output).session
      exact h.of_tell hrun
    | cleanupCache =>
      obtain ⟨told, hrun | hrun⟩ := run_cleanupCache_session t
      · exact h.of_tell hrun
      · show Spent (t.run cleanupCache).2 ∧ (t.run cleanupCache).2.compiler.stats = _
        rw [hrun]
        exact ⟨⟨h.disposed, by simp [Cache.cleanup, h.empty]⟩, rfl⟩
    | clearCache => exact ⟨⟨h.disposed, rfl⟩, rfl⟩
    | setClock now => exact ⟨⟨h.disposed, h.empty⟩, rfl⟩
    | changeFiles change => exact ⟨⟨h.disposed, h.empty⟩, rfl⟩

/-- **Any number of deeds** does. -/
theorem after (h : Spent t) (deeds : List Deed) :
    Spent (after t deeds) ∧ (after t deeds).compiler.stats = t.compiler.stats := by
  induction deeds generalizing t with
  | nil => exact ⟨h, rfl⟩
  | cons d rest ih =>
    obtain ⟨hspent, hstats⟩ := h.deed d
    obtain ⟨hspent', hstats'⟩ := ih hspent
    exact ⟨hspent', hstats'.trans hstats⟩

end Spent

/-- **Disposal is final.**  Whatever was done since a compiler was disposed of, it
remembers nothing and has counted nothing since.  A source fails for a reason of its
own or because of the disposal, a file fails, a report lists every file as failed, and
nothing is changed by any of them. -/
theorem dispose_is_final (s : Session) (later : List Deed) {t : Session}
    (ht : after (s.run dispose).2 later = t) :
    t.compiler.cache.entries = []
      ∧ t.compiler.stats = s.compiler.stats
      ∧ (∀ source, ∃ told, t.run (compile source) = (.error (lastWord source), t.tell told))
      ∧ (∀ source output, ∃ e told, t.run (compileFile source output) = (.error e, t.tell told))
      ∧ (∀ source output deep, Barren t source deep (compileDirectory source output deep))
      ∧ ∀ root source output,
          Barren t (root.join source) true (compileProject root source output) := by
  have hdisposed : Spent (s.run dispose).2 := ⟨rfl, rfl⟩
  obtain ⟨hspent, hstats⟩ := hdisposed.after later
  rw [ht] at hspent hstats
  refine ⟨hspent.empty, hstats, hspent.compile, ?_, hspent.compileDirectory, hspent.compileProject⟩
  intro source output
  obtain ⟨e, told, hrun, -⟩ := hspent.compileFile source output
  exact ⟨e, told, hrun⟩

/-- The page that was remembered is asked for again, its target is removed, and there is
a new source. -/
def afterwards : List Deed :=
  [.operate (.compileFile (inHere ["a.tml"]) none),
   .operate (.changeFiles (·.apply (.remove (inHere ["a.html"])))),
   .operate (.changeFiles (·.apply (.write (inHere ["c.tml"]) "p: three".toUTF8 (.whole 20) false)))]

/-- The file whose page was remembered fails like the others. -/
theorem dispose_is_final_afterwards :
    fullMemory.compiler.cache.entries ≠ []
      ∧ ∃ t, after (fullMemory.run dispose).2 afterwards = t
          ∧ t.compiler.stats = fullMemory.compiler.stats
          ∧ Covered t.files (inHere []) false (inHere ["a.tml"])
          ∧ ∃ report told, t.run (compileDirectory (inHere []) none false)
                = (.ok report, t.tell told)
              ∧ inHere ["a.tml"] ∈ report.failed.map Prod.fst := by
  obtain ⟨-, hstats, -, -, hdirectory, -⟩ := dispose_is_final fullMemory afterwards rfl
  obtain ⟨⟨told, hsession⟩, -, htree, hreturns⟩ := hdirectory (inHere []) none false
  have hcovered : Covered (after (fullMemory.run dispose).2 afterwards).files (inHere []) false
      (inHere ["a.tml"]) := by
    rw [covered_iff]
    decide +kernel
  obtain ⟨report, hresult⟩ := hreturns (Files.look_of_isDirectory (by decide +kernel))
    (by decide +kernel) (Walk.forall_found_of_names ["a.tml", "b.tml", "c.tml", "d"]
      (by decide +kernel) (by unfold Readable; decide +kernel))
  obtain ⟨-, hlisted⟩ := htree (by decide +kernel) report hresult
  exact ⟨by decide +kernel, _, rfl, hstats, hcovered, report, told, Prod.ext hresult hsession,
    (hlisted _).mp hcovered⟩

end Offside.Compiler
