/-
  Offside.Proofs.DirectoryRun
  ───────────────────────────
  What holds while a directory is compiled.

  A directory is compiled while it is being changed: pages may be written into
  it, and directories made in it.  `Exact` says what holds after each file: no
  source was touched, each compiled target holds the page of its source as it
  stood at the start, and no other file was written.  One file keeps it, whether
  it is compiled or fails (`Exact.compileEntry`), and so does a whole run
  (`Exact.entries`).
-/
import Offside.Proofs.DirectoryReport

namespace Offside.Directory

open Compiler

/-! ## §1. What one file does to the store. -/

/-- **What becomes of a file**: it fails and no file is written unless its target was
opened, or its page is written to its target. -/
theorem fileOutcome_cases (g : Generator) (files : Files) (source target : Path) :
    (∃ e, (fileOutcome g files source (some target)).1 = .error e
        ∧ Files.Kept (files.OnWay target.parent)
            (fun loc => e.brokeOff = true ∧ loc = files.placeOf target) files
            (fileOutcome g files source (some target)).2)
      ∨ ∃ content mtime executable html,
          files.stat (files.resolve source) = .ok (.file content mtime executable)
            ∧ pageOfFile g files (files.resolve source) = .ok html
            ∧ (publish files target html).2 = .ok ()
            ∧ fileOutcome g files source (some target)
                = (.ok target, (publish files target html).1) := by
  unfold fileOutcome
  cases files.unresolved? source with
  | some e => exact .inl ⟨_, rfl, Files.Kept.refl _ _ files⟩
  | none =>
    simp only
    split
    next => exact .inl ⟨_, rfl, Files.Kept.refl _ _ files⟩
    next content mtime executable hlook =>
      cases hpage : pageOfFile g files (files.resolve source) with
      | error e => exact .inl ⟨_, rfl, Files.Kept.refl _ _ files⟩
      | ok html =>
        simp only [Option.getD_some]
        cases hpublish : (publish files target html).2 with
        | error e =>
          -- the target is touched only if the page was begun
          refine .inl ⟨_, rfl, ?_⟩
          cases hopened : (Failure.files e).brokeOff with
          | true => exact (publish_kept files target html).mono (fun _ h => h) fun _ h => ⟨rfl, h⟩
          | false =>
            exact (publish_kept_of_error hpublish hopened).mono (fun _ h => h) fun _ h => h.elim
        | ok u =>
          exact .inr ⟨content, mtime, executable, html, Files.look_eq_ok_some hlook, rfl,
            hpublish, rfl⟩
    next => exact .inl ⟨_, rfl, Files.Kept.refl _ _ files⟩

/-- The page of a file is that of its text. -/
theorem exists_text_of_pageOfFile {g : Generator} {files : Files} {path : Path}
    {content : ByteArray} {mtime : Binary64} {executable : Bool} {html : String}
    (hstat : files.stat path = .ok (.file content mtime executable))
    (hpage : pageOfFile g files path = .ok html) :
    ∃ text, decoded? content = some text ∧ pageFrom g files text = .ok html := by
  unfold pageOfFile sourceText at hpage
  rw [Files.read_of_stat hstat] at hpage
  cases htext : decoded? content with
  | none =>
    simp only [htext] at hpage
    exact absurd hpage (by simp [bind, Except.bind])
  | some text =>
    simp only [htext] at hpage
    exact ⟨text, rfl, hpage⟩

/-! ## §2. What one file does to the report. -/

section Report

variable {source : Path} {output : Option Path} {report report' : Compiler.Report}
  {file target : Path} {s s' : Session}

/-- **An entry that the work goes on after** was compiled, or failed and was
reported. -/
theorem run_compileEntry_cases (h : s.run (compileEntry report file target) = (.ok report', s')) :
    (∃ written, s.run (compileFile file (some target)) = (.ok written, s')
        ∧ report' = { report with compiled := report.compiled ++ [(file, target)] })
      ∨ ∃ e s₁ told, s.run (compileFile file (some target)) = (.error e, s₁)
          ∧ s' = s₁.tell told
          ∧ report' = { report with failed := report.failed ++ [(file, e)] } := by
  rcases hfile : s.run (compileFile file (some target)) with ⟨result, s₁⟩
  cases result with
  | ok written =>
    rw [run_compileEntry_of_ok hfile] at h
    injection h with hreport hs
    injection hreport with hreport
    exact .inl ⟨written, by rw [hs], hreport.symm⟩
  | error e =>
    by_cases hreported : e.isReported = true
    · obtain ⟨told, hentry⟩ : ∃ told, s.run (compileEntry report file target) = _ :=
        run_compileEntry_of_reported hfile hreported
      rw [hentry] at h
      injection h with hreport hs
      injection hreport with hreport
      exact .inr ⟨e, s₁, told, rfl, hs.symm, hreport.symm⟩
    · rw [run_compileEntry_of_unreported hfile (by simpa using hreported)] at h
      injection h with hreport hs
      exact absurd hreport (by simp)

end Report

/-- **Every file is listed once**, in the order in which the files were taken up. -/
theorem entries_listed {source : Path} {output : Option Path} (files : List Path) {s s' : Session}
    {report report' : Compiler.Report}
    (h : s.run (files.foldlM (treatIn source output compileEntry) report) = (.ok report', s')) :
    ∃ good bad : List Path,
      report'.compiled = report.compiled ++ good.map (fun file => (file, targetOf source output file))
        ∧ report'.failed.map Prod.fst = report.failed.map Prod.fst ++ bad
        ∧ good.Sublist files ∧ bad.Sublist files ∧ (good ++ bad).Perm files := by
  induction files generalizing s report with
  | nil =>
    injection h with hreport _
    injection hreport with hreport
    subst hreport
    exact ⟨[], [], by simp, by simp, List.Sublist.refl _, List.Sublist.refl _, List.Perm.refl _⟩
  | cons file rest ih =>
    rw [List.foldlM_cons] at h
    obtain ⟨report₁, s₁, hentry, hrest⟩ := Session.ok_of_bind s h
    obtain ⟨good, bad, hgood, hbad, hsub, hsub', hperm⟩ := ih hrest
    rcases run_compileEntry_cases hentry with ⟨target, -, rfl⟩ | ⟨e, s₂, told, -, -, rfl⟩
    · refine ⟨file :: good, bad, ?_, hbad, hsub.cons_cons file, hsub'.cons file,
        hperm.cons file⟩
      rw [hgood]
      simp
    · refine ⟨good, file :: bad, hgood, ?_, hsub.cons file, hsub'.cons_cons file, ?_⟩
      · rw [hbad]
        simp
      · exact List.perm_middle.trans (hperm.cons file)

/-! ## §3. What holds after every file. -/

/-- What a directory is compiled from: a tree of files and a formatter that always
gives the same answer, with nothing remembered. -/
structure Fresh (start : Session) (source : Path) : Prop where
  tree : IsTree start.files
  clean : Clean source
  forgotten : start.compiler.cache.entries = []
  formatter : start.compiler.generator.formatter.IsFunction

/-- The page of a source as it stands in a store. -/
def HasPage (g : Generator) (files : Files) (file : Path) (html : String) : Prop :=
  ∃ content mtime text, files.version? (files.placeOf file) = some (content, mtime)
    ∧ decoded? content = some text ∧ pageFrom g files text = .ok html

/-- No source was touched. -/
structure SameSources (a b : Files) : Prop where
  ground : b.toGround = a.toGround
  version : ∀ loc, SourceSpot loc → b.version? loc = a.version? loc

/-- What holds of the session and the report after some of the files. -/
structure Exact (start : Session) (source : Path) (output : Option Path) (deep : Bool)
    (s : Session) (report : Compiler.Report) : Prop where
  generator : s.compiler.generator = start.compiler.generator
  now : s.now = start.now
  dated : ∀ x ∈ s.compiler.cache.entries, x.2.storedAt = start.now
  /-- What is remembered was made of the sources as they are. -/
  faithful : ∃ past, Faithful start.compiler.generator past s.compiler.cache
    ∧ ∀ files ∈ past, SameSources start.files files
  /-- Directories were made on the way to targets, and compiled targets written, and
  those of failed files that were opened. -/
  kept : Files.Kept
    (fun loc => ∃ file, Covered start.files source deep file
      ∧ start.files.OnWay (targetOf source output file).parent loc)
    (fun loc => (∃ x ∈ report.compiled, loc = start.files.placeOf x.2)
      ∨ ∃ x ∈ report.failed, x.2.brokeOff = true
          ∧ loc = start.files.placeOf (targetOf source output x.1)) start.files s.files
  compiled : ∀ x ∈ report.compiled, Covered start.files source deep x.1
    ∧ x.2 = targetOf source output x.1
  failed : ∀ x ∈ report.failed, Covered start.files source deep x.1
  /-- A compiled target holds the page of its source. -/
  pages : ∀ x ∈ report.compiled, ∃ html mtime,
    HasPage start.compiler.generator start.files x.1 html
      ∧ s.files.version? (start.files.placeOf x.2) = some (html.toUTF8, mtime)

namespace Exact

variable {start s s' : Session} {source : Path} {output : Option Path} {deep : Bool}
  {report report' : Compiler.Report} {file : Path}

theorem init (hfresh : Fresh start source) : Exact start source output deep start {} where
  generator := rfl
  now := rfl
  dated := by
    intro x hx
    rw [hfresh.forgotten] at hx
    exact absurd hx (by simp)
  faithful := by
    refine ⟨[], ?_, by simp⟩
    intro x hx
    rw [hfresh.forgotten] at hx
    exact absurd hx (by simp)
  kept := Files.Kept.refl _ _ _
  compiled := by
    intro x hx
    exact absurd hx (by simp)
  failed := by
    intro x hx
    exact absurd hx (by simp)
  pages := by
    intro x hx
    exact absurd hx (by simp)

theorem tell (h : Exact start source output deep s report) (text : String) :
    Exact start source output deep (s.tell text) report :=
  ⟨h.generator, h.now, h.dated, h.faithful, h.kept, h.compiled, h.failed, h.pages⟩

/-- Pages are no sources, so no source was touched. -/
theorem sameSources (hfresh : Fresh start source) (h : Exact start source output deep s report) :
    SameSources start.files s.files := by
  refine ⟨h.kept.ground, fun loc hloc => h.kept.version? ?_⟩
  rintro (⟨x, hx, rfl⟩ | ⟨x, hx, -, rfl⟩)
  · obtain ⟨hcovered, htarget⟩ := h.compiled x hx
    rw [htarget] at hloc
    exact hcovered.not_sourceSpot_target hfresh.tree.unlinked output hloc
  · exact (h.failed x hx).not_sourceSpot_target hfresh.tree.unlinked output hloc

theorem isUndated_eq_false (h : Exact start source output deep s report) (path : Path) :
    s.compiler.cache.isUndated s.now path = false := by
  unfold Cache.isUndated
  cases hfind : s.compiler.cache.find? path with
  | none => rfl
  | some e =>
    have hstored := h.dated _ (Cache.mem_of_find? hfind)
    show Cache.ageless s.now e = false
    unfold Cache.ageless
    rw [hstored, h.now]
    simpa using Time.since_self_isSome start.now

theorem links_eq (hfresh : Fresh start source) (h : Exact start source output deep s report) :
    s.files.links = [] := by
  rw [h.kept.ground]
  exact hfresh.tree.unlinked

/-- A file is compiled as if nothing were remembered. -/
theorem run_eq (hfresh : Fresh start source) (h : Exact start source output deep s report)
    (hcovered : Covered start.files source deep file) (target : Path) :
    (s.run (compileFile file (some target))).1
        = (fileOutcome start.compiler.generator s.files file (some target)).1
      ∧ (s.run (compileFile file (some target))).2.files
        = (fileOutcome start.compiler.generator s.files file (some target)).2 := by
  obtain ⟨past, hfaithful, hpast⟩ := h.faithful
  refine run_compileFile_eq hfresh.formatter h.generator hfaithful file ?_
    (h.isUndated_eq_false _) (some target)
  intro files hfiles a ha b hb hne
  -- the source is the same in both stores
  have hsame := hpast files hfiles
  have hspot := hcovered.sourceSpot hfresh.tree.unlinked (h.links_eq hfresh)
  rw [Files.placeOf_eq_of_ground hsame.ground, hsame.version _ hspot] at ha
  rw [Files.placeOf_eq_of_ground h.kept.ground, (h.sameSources hfresh).version _ hspot, ha] at hb
  injection hb with hb
  exact absurd (congrArg Prod.fst hb) hne

/-- What a file leaves in the memory keeps the memory faithful. -/
theorem remember (hfresh : Fresh start source) (h : Exact start source output deep s report)
    (file target : Path) :
    (∀ x ∈ (s.run (compileFile file (some target))).2.compiler.cache.entries,
        x.2.storedAt = start.now)
      ∧ ∃ past, Faithful start.compiler.generator past
          (s.run (compileFile file (some target))).2.compiler.cache
        ∧ ∀ files ∈ past, SameSources start.files files := by
  have hrecalls := run_compileFile_recalls s file (some target)
  obtain ⟨past, hfaithful, hpast⟩ := h.faithful
  constructor
  · intro x hx
    rcases hrecalls.entries x hx with hold | ⟨-, hstored, -⟩
    · exact h.dated x hold
    · rw [hstored, h.now]
  · refine ⟨s.files :: past, ?_, ?_⟩
    · intro x hx
      rcases hrecalls.entries x hx with hold | ⟨hpath, -, hmade⟩
      · obtain ⟨files, hfiles, hmade⟩ := hfaithful x hold
        exact ⟨files, List.mem_cons_of_mem _ hfiles, hmade⟩
      · refine ⟨s.files, List.mem_cons_self, ?_⟩
        rw [hpath, ← h.generator]
        exact hmade
    · intro files hfiles
      cases List.mem_cons.mp hfiles with
      | inl hnow =>
        rw [hnow]
        exact h.sameSources hfresh
      | inr hold => exact hpast files hold

/-- The page that is made now of a source is its page at the start. -/
theorem hasPage (hfresh : Fresh start source) (h : Exact start source output deep s report)
    (hcovered : Covered start.files source deep file) {content : ByteArray} {mtime : Binary64}
    {executable : Bool} {html : String}
    (hstat : s.files.stat (s.files.resolve file) = .ok (.file content mtime executable))
    (hpage : pageOfFile start.compiler.generator s.files (s.files.resolve file) = .ok html) :
    HasPage start.compiler.generator start.files file html := by
  obtain ⟨text, htext, hmade⟩ := exists_text_of_pageOfFile hstat hpage
  refine ⟨content, mtime, text, ?_, htext, ?_⟩
  · have hplace : s.files.placeOf (s.files.resolve file) = start.files.placeOf file := by
      rw [Files.resolve_eq_of_ground h.kept.ground, Files.placeOf_eq_of_ground h.kept.ground]
      exact placeOf_resolve hfresh.tree.unlinked hfresh.tree.home
        (hcovered.clean hfresh.tree hfresh.clean)
    have hspot : SourceSpot (start.files.placeOf file) := by
      rw [← hplace]
      exact hcovered.sourceSpot (h.links_eq hfresh) (h.links_eq hfresh)
    rw [← (h.sameSources hfresh).version _ hspot, ← hplace]
    exact Files.version?_of_stat hstat
  · rw [← hmade]
    exact pageFrom_of_isFunction hfresh.formatter start.files s.files text

/-- A file that fails writes nothing but its own target, and that only if it was
opened. -/
theorem fail (hfresh : Fresh start source) (h : Exact start source output deep s report)
    (hcovered : Covered start.files source deep file) (hnew : ∀ x ∈ report.compiled, x.1 ≠ file)
    {e : Failure}
    (hrun : s.run (compileFile file (some (targetOf source output file))) = (.error e, s')) :
    Exact start source output deep s' { report with failed := report.failed ++ [(file, e)] } := by
  obtain ⟨hresult, hfiles⟩ := h.run_eq hfresh hcovered (targetOf source output file)
  obtain ⟨hdated, hfaithful⟩ := h.remember hfresh file (targetOf source output file)
  have hrecalls := run_compileFile_recalls s file (some (targetOf source output file))
  rw [hrun] at hresult hfiles hdated hfaithful hrecalls
  rcases fileOutcome_cases start.compiler.generator s.files file (targetOf source output file) with
    ⟨e', he', hkept⟩ | ⟨content, mtime, executable, html, -, -, -, houtcome⟩
  · rw [he'] at hresult
    injection hresult with hresult
    subst hresult
    rw [← hfiles, Files.placeOf_eq_of_ground h.kept.ground] at hkept
    refine ⟨hrecalls.generator.trans h.generator, hrecalls.now.trans h.now, hdated, hfaithful, ?_,
      h.compiled, ?_, ?_⟩
    · refine Files.Kept.trans (h.kept.mono (fun _ hloc => hloc) ?_) (hkept.mono ?_ ?_)
      · rintro loc (hold | ⟨x, hx, hold⟩)
        · exact .inl hold
        · exact .inr ⟨x, List.mem_append_left _ hx, hold⟩
      · intro loc hloc
        rw [Files.onWay_eq_of_ground h.kept.ground] at hloc
        exact ⟨file, hcovered, hloc⟩
      · rintro loc ⟨hopened, hloc⟩
        exact .inr ⟨(file, e), by simp, hopened, hloc⟩
    · intro x hx
      cases List.mem_append.mp hx with
      | inl hold => exact h.failed x hold
      | inr hlast =>
        rw [List.mem_singleton.mp hlast]
        exact hcovered
    · intro x hx
      obtain ⟨html, mtime, hpage, hstands⟩ := h.pages x hx
      obtain ⟨hcovered', htarget⟩ := h.compiled x hx
      refine ⟨html, mtime, hpage, ?_⟩
      rw [← hstands]
      -- no two covered files share a target, so this page is not the one broken into
      apply hkept.version?
      rintro ⟨-, hplace⟩
      rw [htarget] at hplace
      exact hnew x hx (eq_of_placeOf_target hfresh.tree hcovered' hcovered hplace)
  · rw [houtcome] at hresult
    exact absurd hresult (by simp)

/-- One more compiled file is listed with its target. -/
theorem compiled_concat (h : Exact start source output deep s report)
    (hcovered : Covered start.files source deep file) :
    ∀ x ∈ report.compiled ++ [(file, targetOf source output file)],
      Covered start.files source deep x.1 ∧ x.2 = targetOf source output x.1 := by
  intro x hx
  cases List.mem_append.mp hx with
  | inl hold => exact h.compiled x hold
  | inr hnew =>
    rw [List.mem_singleton.mp hnew]
    exact ⟨hcovered, rfl⟩

/-- The pages of the files that were compiled before are left alone by one more,
since distinct sources have distinct targets. -/
theorem pages_concat (hfresh : Fresh start source) (h : Exact start source output deep s report)
    (hcovered : Covered start.files source deep file) {made : Location → Prop}
    (hkept : Files.Kept made (· = start.files.placeOf (targetOf source output file)) s.files s'.files)
    {html : String} {mtime : Binary64} (hpage : HasPage start.compiler.generator start.files file html)
    (hstands : s'.files.version? (start.files.placeOf (targetOf source output file))
      = some (html.toUTF8, mtime)) :
    ∀ x ∈ report.compiled ++ [(file, targetOf source output file)], ∃ html mtime,
      HasPage start.compiler.generator start.files x.1 html
        ∧ s'.files.version? (start.files.placeOf x.2) = some (html.toUTF8, mtime) := by
  intro x hx
  obtain ⟨hcovered', htarget⟩ := h.compiled_concat hcovered x hx
  by_cases hsame : x.1 = file
  · -- this target was written just now
    rw [htarget, hsame]
    exact ⟨html, mtime, hpage, hstands⟩
  · -- any other target is elsewhere
    have hold : x ∈ report.compiled := by
      cases List.mem_append.mp hx with
      | inl hold => exact hold
      | inr hnew =>
        rw [List.mem_singleton.mp hnew] at hsame
        exact absurd rfl hsame
    obtain ⟨html', mtime', hpage', hstands'⟩ := h.pages x hold
    refine ⟨html', mtime', hpage', ?_⟩
    rw [← hstands']
    apply hkept.version?
    intro hwritten
    rw [htarget] at hwritten
    exact hsame (eq_of_placeOf_target hfresh.tree hcovered' hcovered hwritten)

/-- A file that is compiled is written to its target, and to no other. -/
theorem succeed (hfresh : Fresh start source) (h : Exact start source output deep s report)
    (hcovered : Covered start.files source deep file) {target : Path}
    (hrun : s.run (compileFile file (some (targetOf source output file))) = (.ok target, s')) :
    Exact start source output deep s'
      { report with compiled := report.compiled ++ [(file, targetOf source output file)] } := by
  obtain ⟨hresult, hfiles⟩ := h.run_eq hfresh hcovered (targetOf source output file)
  obtain ⟨hdated, hfaithful⟩ := h.remember hfresh file (targetOf source output file)
  have hrecalls := run_compileFile_recalls s file (some (targetOf source output file))
  rw [hrun] at hresult hfiles hdated hfaithful hrecalls
  rcases fileOutcome_cases start.compiler.generator s.files file (targetOf source output file) with
    ⟨e, herror, -⟩ | ⟨content, mtime, executable, html, hstat, hpage, hpublish, houtcome⟩
  · rw [herror] at hresult
    exact absurd hresult (by simp)
  have hfiles : s'.files = (publish s.files (targetOf source output file) html).1 := by
    rw [hfiles, houtcome]
  have hplace : ∀ p, s.files.placeOf p = start.files.placeOf p :=
    Files.placeOf_eq_of_ground h.kept.ground
  have hkept := publish_kept s.files (targetOf source output file) html
  rw [← hfiles, hplace] at hkept
  obtain ⟨mtime', hstands⟩ := publish_eq_ok hpublish
  rw [← hfiles, hplace] at hstands
  refine ⟨hrecalls.generator.trans h.generator, hrecalls.now.trans h.now, hdated, hfaithful, ?_,
    h.compiled_concat hcovered, h.failed,
    h.pages_concat hfresh hcovered hkept (h.hasPage hfresh hcovered hstat hpage) hstands⟩
  -- what was written before is still accounted for, and the new page is listed
  refine Files.Kept.trans (h.kept.mono (fun loc hloc => hloc) ?_) (hkept.mono ?_ ?_)
  · rintro loc (⟨x, hx, hplace⟩ | hold)
    · exact .inl ⟨x, List.mem_append_left _ hx, hplace⟩
    · exact .inr hold
  · intro loc hloc
    rw [Files.onWay_eq_of_ground h.kept.ground] at hloc
    exact ⟨file, hcovered, hloc⟩
  · intro loc hloc
    exact .inl ⟨_, List.mem_append_right _ (List.mem_singleton_self _), hloc⟩

/-- **One step** keeps what holds. -/
theorem compileEntry (hfresh : Fresh start source) (h : Exact start source output deep s report)
    (hcovered : Covered start.files source deep file) (hnew : ∀ x ∈ report.compiled, x.1 ≠ file)
    (hrun : s.run (Compiler.compileEntry report file (targetOf source output file))
      = (.ok report', s')) :
    Exact start source output deep s' report'
      ∧ ∀ x ∈ report'.compiled, x ∈ report.compiled ∨ x.1 = file := by
  rcases run_compileEntry_cases hrun with ⟨target, hfile, rfl⟩ | ⟨e, s₁, told, hfile, rfl, rfl⟩
  · refine ⟨h.succeed hfresh hcovered hfile, fun x hx => ?_⟩
    exact (List.mem_append.mp hx).imp_right fun hlast => by rw [List.mem_singleton.mp hlast]
  · exact ⟨(h.fail hfresh hcovered hnew hfile).tell told, fun x hx => .inl hx⟩

/-- **A whole run** keeps what holds, if no file is taken up twice. -/
theorem entries (hfresh : Fresh start source) {files : List Path} (hnodup : files.Nodup)
    (hfiles : ∀ file ∈ files, Covered start.files source deep file)
    (hnew : ∀ x ∈ report.compiled, x.1 ∉ files) (h : Exact start source output deep s report)
    (hrun : s.run (files.foldlM (treatIn source output Compiler.compileEntry) report)
      = (.ok report', s')) :
    Exact start source output deep s' report' := by
  induction files generalizing s report with
  | nil =>
    injection hrun with hreport hs
    injection hreport with hreport
    rw [← hreport, ← hs]
    exact h
  | cons file rest ih =>
    rw [List.foldlM_cons] at hrun
    obtain ⟨report₁, s₁, hentry, hrest⟩ := Session.ok_of_bind s hrun
    obtain ⟨hfile, hnodup⟩ := List.nodup_cons.mp hnodup
    obtain ⟨hstep, hcompiled⟩ := h.compileEntry hfresh (hfiles file List.mem_cons_self)
      (fun x hx heq => hnew x hx (by simp [heq])) hentry
    refine ih hnodup (fun f hf => hfiles f (List.mem_cons_of_mem _ hf)) ?_ hstep hrest
    intro x hx hmem
    rcases hcompiled x hx with hold | hlast
    · exact hnew x hold (List.mem_cons_of_mem _ hmem)
    · rw [hlast] at hmem
      exact hfile hmem

end Exact

end Offside.Directory
