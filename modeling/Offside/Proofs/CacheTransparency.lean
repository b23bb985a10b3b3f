/-
  Offside.Proofs.CacheTransparency
  ────────────────────────────────
  A compiler with a memory does what a new one does.

  A compiler is used in any order: sources, files, directories and projects are
  compiled, the memory is cleaned up or cleared, time passes and others change
  the files.  `history` lists the stores that come about, `calls` the files that
  are compiled.  If no content of a file ever comes back under a time that is
  not later than those it replaces, every one of these calls ends as it would
  with an empty memory.

  One operation keeps the memory faithful to the stores so far (`Coherent`);
  the induction over a whole use is `calls_outcome`.  It is not enough that a
  new content is later than the last one: a file whose time was set back in
  between is taken for an old one (`set_back_is_stale`).
-/
import Offside.Proofs.CompileFile
import Offside.Proofs.Walks

namespace Offside.Transparency

open Compiler

/-! ## §1. A compiler in use. -/

/-- What is done with a compiler, to its clock and to the files. -/
inductive Operation where
  | compile (source : String)
  | compileFile (source : Path) (output : Option Path)
  | compileDirectory (source : Path) (output : Option Path) (deep : Bool)
  | compileProject (root source output : Path)
  | cleanupCache
  | clearCache
  | setClock (now : Time)
  | changeFiles (change : Files → Files)

/-- The session after an operation, whether it failed or not. -/
def Operation.perform (s : Session) : Operation → Session
  | .compile source => (s.run (Compiler.compile source)).2
  | .compileFile source output => (s.run (Compiler.compileFile source output)).2
  | .compileDirectory source output deep =>
    (s.run (Compiler.compileDirectory source output deep)).2
  | .compileProject root source output => (s.run (Compiler.compileProject root source output)).2
  | .cleanupCache => (s.run Compiler.cleanupCache).2
  | .clearCache => (s.run Compiler.clearCache).2
  | .setClock now => { s with now }
  | .changeFiles change => { s with files := change s.files }

/-- A file that is compiled, and the session in which it is. -/
structure Call where
  session : Session
  source : Path
  output : Option Path

/-- The same call in another session. -/
def Call.within (call : Call) (s : Session) : Call := { call with session := s }

/-- How a call ends: with a target or a failure, and with these files. -/
def Call.outcome (call : Call) : Except Failure Path × Files :=
  let (result, after) := call.session.run (Compiler.compileFile call.source call.output)
  (result, after.files)

/-- The call that treats a file of a directory. -/
def stepCall (step : Walk.Step Compiler.Report) : Call :=
  ⟨step.session, step.file, some step.target⟩

/-- The calls for a directory, in the order in which it is walked down. -/
def directoryCalls (s : Session) (source : Path) (output : Option Path) (deep : Bool) :
    List Call :=
  match s.files.look source with
  | .ok (some .directory) =>
    (Walk.walkSteps deep compileEntry Files.maxLevels s source output {}).map stepCall
  | _ => []

/-- The calls of an operation. -/
def Operation.calls (s : Session) : Operation → List Call
  | .compileFile source output => [⟨s, source, output⟩]
  | .compileDirectory source output deep => directoryCalls s source output deep
  | .compileProject root source output =>
    directoryCalls s (root.join source) (some (root.join output)) true
  | _ => []

/-- The calls of a whole use. -/
def calls : Session → List Operation → List Call
  | _, [] => []
  | s, op :: rest => op.calls s ++ calls (op.perform s) rest

/-- The stores of a whole use: before every operation, and before every file of
a directory. -/
def history : Session → List Operation → List Files
  | _, [] => []
  | s, op :: rest =>
    s.files :: ((op.calls s).map (·.session.files) ++ history (op.perform s) rest)

/-! ## §2. One operation. -/

/-- A coherent session compiles a file as if there were no memory. -/
theorem outcome_eq {g : Generator} (hf : g.formatter.IsFunction) {past : List Files} {s : Session}
    (h : Coherent g past s)
    (hforward : ∀ files ∈ past, files.Forward s.files) (source : Path) (output : Option Path) :
    (Call.mk s source output).outcome = fileOutcome g s.files source output := by
  obtain ⟨hresult, hfiles⟩ := run_compileFile_eq hf h.generator h.faithful source
    (fun files hfiles => hforward files hfiles _) (h.isUndated_eq_false _) output
  exact Prod.ext hresult hfiles

/-- The stores in which calls are made. -/
abbrev stores (calls : List Call) : List Files := calls.map (·.session.files)

/-- If nothing goes back in time, these calls end as they would without a
memory, and the memory is coherent after them. -/
def Sound (g : Generator) (past : List Files) (calls : List Call) (after : Session) : Prop :=
  (past ++ stores calls).Pairwise Files.Forward →
    (∀ call ∈ calls,
      call.outcome = fileOutcome g call.session.files call.source call.output)
    ∧ Coherent g (past ++ stores calls) after

variable {g : Generator}

theorem sound_nil {past : List Files} {s : Session} (h : Coherent g past s) :
    Sound g past [] s := by
  intro _
  refine ⟨by simp, ?_⟩
  rw [stores, List.map_nil, List.append_nil]
  exact h

/-- One call, and then the others. -/
theorem sound_cons (hf : g.formatter.IsFunction) {past : List Files} {s s' after : Session}
    {source : Path} {output : Option Path} {rest : List Call} (h : Coherent g past s)
    {path : Path} (hrecalls : Recalls path s s')
    (hrest : Coherent g (past ++ [s.files]) s' → Sound g (past ++ [s.files]) rest after) :
    Sound g past (⟨s, source, output⟩ :: rest) after := by
  intro hpairwise
  have hsplit : past ++ stores (⟨s, source, output⟩ :: rest)
      = (past ++ [s.files]) ++ stores rest := by
    simp [stores]
  rw [hsplit] at hpairwise ⊢
  have hnow : Coherent g (past ++ [s.files]) s' :=
    h.recalls hrecalls (by simp) fun e hmade => ⟨s.files, by simp, hmade⟩
  have hforward : ∀ files ∈ past, files.Forward s.files := by
    intro files hfiles
    exact (List.pairwise_append.mp (List.pairwise_append.mp hpairwise).1).2.2 files hfiles
      s.files (by simp)
  obtain ⟨hcalls, hafter⟩ := hrest hnow hpairwise
  refine ⟨?_, hafter⟩
  intro call hcall
  rcases List.mem_cons.mp hcall with rfl | hcall
  · exact outcome_eq hf h hforward source output
  · exact hcalls call hcall

/-- **The files of a directory**, one after the other, as far as they are taken up. -/
theorem sound_trail (hf : g.formatter.IsFunction) {steps : List (Walk.Step Compiler.Report)}
    {report : Compiler.Report} {result : Except Failure Compiler.Report × Session}
    {past : List Files} {s : Session} (htrail : Walk.Trail compileEntry s report steps result)
    (h : Coherent g past s) : Sound g past (steps.map stepCall) result.2 := by
  have hrecalls : ∀ (s : Session) report file target,
      Recalls (s.files.resolve file) s (s.run (compileEntry report file target)).2 := by
    intro s report file target
    obtain ⟨told, htold⟩ := run_compileEntry_session s report file target
    rw [htold]
    exact (run_compileFile_recalls s file _).tell told
  induction htrail generalizing past with
  | arrived s report => exact sound_nil h
  | cut s report e => exact sound_nil h
  | @broken s s' report file target e hrun =>
    have hrecalls := hrecalls s report file target
    rw [hrun] at hrecalls
    exact sound_cons hf h hrecalls fun hnow => sound_nil hnow
  | @onward s s' report report' file target steps result hrun _ ih =>
    have hrecalls := hrecalls s report file target
    rw [hrun] at hrecalls
    exact sound_cons hf h hrecalls fun hnow => ih hnow

theorem sound_directory (hf : g.formatter.IsFunction) (source : Path) (output : Option Path)
    (deep : Bool) {past : List Files} {s : Session} (h : Coherent g past s) :
    Sound g past (directoryCalls s source output deep)
      (s.run (compileDirectory source output deep)).2 := by
  unfold directoryCalls
  by_cases hlook : s.files.look source = .ok (some .directory)
  · rw [run_compileDirectory_of_directory s source output deep hlook, hlook]
    exact sound_trail hf
      (Walk.trail_walkDown deep Files.maxLevels s source output ({} : Compiler.Report)) h
  · obtain ⟨e, hrun⟩ := run_compileDirectory_of_other s source output deep hlook
    rw [hrun]
    split
    next hdirectory => exact absurd hdirectory hlook
    next => exact sound_nil h

/-- A clock is set to a time that double precision can hold. -/
def Operation.Timely : Operation → Prop
  | .setClock now => now.Fits
  | _ => True

/-- **One operation**: what it compiles comes out as without a memory, and the
memory stays coherent. -/
theorem Operation.sound (hf : g.formatter.IsFunction) (op : Operation) (htimely : op.Timely)
    {past : List Files} {s : Session} (h : Coherent g past s) :
    Sound g past (op.calls s) (op.perform s) := by
  cases op with
  | compile source =>
    obtain ⟨told, hrun⟩ := run_compile s source
    refine sound_nil (h.forget (List.Subset.refl past) ?_ ?_ ?_)
    all_goals simp only [Operation.perform, hrun]
    · rfl
    · exact h.clock
    · exact List.Subset.refl _
  | compileFile source output =>
    exact sound_cons hf h (run_compileFile_recalls s source output) sound_nil
  | compileDirectory source output deep => exact sound_directory hf source output deep h
  | compileProject root source output =>
    show Sound g past (directoryCalls s (root.join source) (some (root.join output)) true)
      (s.run (Compiler.compileProject root source output)).2
    by_cases hlook : s.files.look (root.join source) = .ok (some .directory)
    · rw [run_compileProject_of_directory s root source output hlook]
      exact sound_directory hf _ _ true h
    · obtain ⟨e, hrun⟩ := run_compileProject_of_other s root source output hlook
      rw [hrun]
      unfold directoryCalls
      split
      next hdirectory => exact absurd hdirectory hlook
      next => exact sound_nil h
  | cleanupCache =>
    obtain ⟨told, hrun | hrun⟩ := run_cleanupCache_session s
    · refine sound_nil (h.forget (List.Subset.refl past) ?_ ?_ ?_)
      all_goals simp only [Operation.perform, hrun]
      · rfl
      · exact h.clock
      · exact List.Subset.refl _
    · refine sound_nil (h.forget (List.Subset.refl past) ?_ ?_ ?_)
      all_goals simp only [Operation.perform, hrun]
      · rfl
      · exact h.clock
      · exact List.filter_sublist.subset
  | clearCache =>
    exact sound_nil (h.forget (List.Subset.refl past) rfl h.clock (List.nil_subset _))
  | setClock now =>
    exact sound_nil (h.forget (List.Subset.refl past) rfl htimely (List.Subset.refl _))
  | changeFiles change =>
    exact sound_nil (h.forget (List.Subset.refl past) rfl h.clock (List.Subset.refl _))

/-! ## §3. A whole use. -/

/-- **Every call of a use** comes out as without a memory. -/
theorem calls_outcome (hf : g.formatter.IsFunction) (ops : List Operation)
    (htimely : ∀ op ∈ ops, op.Timely) {past : List Files} {s : Session} (h : Coherent g past s)
    (hforward : (past ++ history s ops).Pairwise Files.Forward) :
    ∀ call ∈ calls s ops,
      call.outcome = fileOutcome g call.session.files call.source call.output := by
  induction ops generalizing past s with
  | nil => simp [calls]
  | cons op rest ih =>
    have hsplit : past ++ history s (op :: rest)
        = (past ++ [s.files] ++ stores (op.calls s)) ++ history (op.perform s) rest := by
      simp [history, stores]
    rw [hsplit] at hforward
    have hnow : Coherent g (past ++ [s.files]) s :=
      h.forget (by simp) rfl h.clock (List.Subset.refl _)
    obtain ⟨hcalls, hafter⟩ := op.sound hf (htimely op (by simp)) hnow
      (List.pairwise_append.mp hforward).1
    have hlater := ih (fun op hop => htimely op (by simp [hop])) hafter hforward
    intro call hcall
    rcases List.mem_append.mp hcall with hcall | hcall
    · exact hcalls call hcall
    · exact hlater call hcall

/-- **The memory cannot be noticed.**  A compiler that starts with an empty cache
is used in any way.  If every content of a file is later than every other one
that the file had before, each call ends as the same call of a new compiler on
the same files. -/
theorem calls_as_new {start : Session} {ops : List Operation}
    (hempty : start.compiler.cache.entries = [])
    (hformatter : start.compiler.generator.formatter.IsFunction)
    (hclock : start.now.Fits) (htimely : ∀ op ∈ ops, op.Timely)
    (hrising : ∀ loc, (Files.versions (history start ops) ⟨.root, loc⟩).Pairwise Later)
    {call : Call} (hcall : call ∈ calls start ops) {fresh : Session}
    (hgenerator : fresh.compiler.generator = start.compiler.generator)
    (hfresh : fresh.compiler.cache.entries = []) (hfiles : fresh.files = call.session.files) :
    call.outcome = (call.within fresh).outcome := by
  have hforward := Files.forward_of_versions hrising
  have hused := calls_outcome hformatter ops htimely (Coherent.of_empty hclock hempty)
    hforward call hcall
  have hnew : (call.within fresh).outcome
      = fileOutcome start.compiler.generator fresh.files call.source call.output := by
    have hfaithful : Faithful start.compiler.generator [] fresh.compiler.cache := by
      intro x hx
      simp [hfresh] at hx
    obtain ⟨hresult, hafter⟩ := run_compileFile_eq hformatter hgenerator hfaithful call.source
      (by simp) (Cache.isUndated_of_empty hfresh) call.output
    exact Prod.ext hresult hafter
  rw [hused, hnew, hfiles]

/-! ## §4. Two uses. -/

/-- A compiler that has compiled nothing yet, and one source file. -/
def oneFile : Session := minifying (holding [(["a.tml"], "p: one".toUTF8, 10)])

/-- A file is written again, pushed out by another one, too old, gone, and there
again with its first content. -/
def rewritten : List Operation :=
  [.compileFile (inHere ["a.tml"]) none,
   .compileFile (inHere ["a.tml"]) none,
   .changeFiles (·.apply (.write (inHere ["a.tml"]) "p: two".toUTF8 (.whole 11) false)),
   .compileFile (inHere ["a.tml"]) none,
   .changeFiles (·.apply (.write (inHere ["b.tml"]) "p: three".toUTF8 (.whole 5) false)),
   .compileFile (inHere ["b.tml"]) none,
   .setClock (.whole 100),
   .cleanupCache,
   .compileFile (inHere ["b.tml"]) none,
   .changeFiles (·.apply (.remove (inHere ["a.tml"]))),
   .compileFile (inHere ["a.tml"]) none,
   .changeFiles (·.apply (.write (inHere ["a.tml"]) "p: one".toUTF8 (.whole 12) false)),
   .compileFile (inHere ["a.tml"]) none]

theorem calls_as_new_rewritten :
    (calls oneFile rewritten).length = 7
      ∧ (∀ loc, (Files.versions (history oneFile rewritten) ⟨.root, loc⟩).Pairwise Later)
      ∧ ∀ call ∈ calls oneFile rewritten,
          call.outcome = (call.within { oneFile with files := call.session.files }).outcome := by
  have hrising : ∀ loc, (Files.versions (history oneFile rewritten) ⟨.root, loc⟩).Pairwise Later :=
    Files.forall_versions (by decide +kernel) List.Pairwise.nil (by decide +kernel)
  have htimely : ∀ op ∈ rewritten, op.Timely := by
    have hlater : (Time.whole 100).Fits := rfl
    simp [rewritten, Operation.Timely, hlater]
  have hclock : oneFile.now.Fits := rfl
  exact ⟨by decide +kernel, hrising, fun call hcall =>
    calls_as_new rfl minifier_isFunction hclock htimely hrising hcall rfl rfl rfl⟩

/-- The bytes of the file at a location after a call. -/
def Call.bytesAt (call : Call) (loc : Location) : Option ByteArray :=
  (call.outcome.2.version? loc).map Prod.fst

/-- The file is compiled, its time is set back, and it is written again at a
time before the first one. -/
def setBack : List Operation :=
  [.compileFile (inHere ["a.tml"]) none,
   .changeFiles (·.apply (.touch (inHere ["a.tml"]) (.whole 5))),
   .changeFiles (·.apply (.write (inHere ["a.tml"]) "p: two".toUTF8 (.whole 7) false)),
   .compileFile (inHere ["a.tml"]) none]

/-- **It is not enough that a new content is later than the last one.**  When the
time of a file was set back, its old page is written once more, where a new
compiler writes the new one. -/
theorem set_back_is_stale :
    oneFile.compiler.cache.entries = []
      ∧ oneFile.compiler.generator.formatter.IsFunction
      ∧ oneFile.now.Fits ∧ (∀ op ∈ setBack, op.Timely)
      ∧ (∀ loc, (Files.versions (history oneFile setBack) ⟨.root, loc⟩).IsChain Later)
      ∧ ∃ call ∈ calls oneFile setBack,
          call.bytesAt ["w", "a.html"] = some "<p>one</p>".toUTF8
            ∧ (call.within { oneFile with files := call.session.files }).bytesAt ["w", "a.html"]
                = some "<p>two</p>".toUTF8 := by
  refine ⟨rfl, minifier_isFunction, rfl, by simp [setBack, Operation.Timely],
    Files.forall_versions (by decide +kernel) List.IsChain.nil (by decide +kernel), ?_⟩
  refine ⟨(calls oneFile setBack).getLast (by simp [calls, setBack, Operation.calls]),
    List.getLast_mem _, ?_⟩
  decide +kernel

end Offside.Transparency
