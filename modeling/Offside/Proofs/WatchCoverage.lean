/-
  Offside.Proofs.WatchCoverage
  ────────────────────────────
  **A WATCH AND A BATCH COVER THE SAME WORK.**

  A batch goes down a directory name by name: it sorts the names of each directory
  as it gets there, tells sources by their suffix, and makes the path of a target
  out of the names it came through (`Batch.walked`).  A watch lists all files below
  the directory whose names end like those of sources, sorts them once, and moves
  the rest of each path to the output.  In a tree that only the batch writes to, both
  come to the same pairs of a source and a target, in the same order
  (`watch_covers_batch`), except that a file whose whole name is the suffix is watched
  and is no source.

  A batch may come to more than was there to be watched when it began: a formatter can
  write a source into a directory that is not listed yet, and a link to a directory is
  gone down into and not listed below (`batch_attempts_more`).
-/
import Offside.Proofs.ReportedFailures

namespace Offside.CommandLine

open Compiler Directory Offside.Action

/-! ## §1. The watched files that are sources. -/

/-- A watched name is that of a source, unless there is nothing in front of the
suffix. -/
theorem isSourceName_eq (name : String) :
    isSourceName name = (isWatchedName name && name != sourceSuffix) := by
  rw [Bool.eq_iff_iff, Bool.and_eq_true, isSourceName_iff, isWatchedName_iff, bne_iff_ne]
  constructor
  · intro h
    obtain ⟨stem, hne, rfl⟩ := h
    refine ⟨⟨stem, rfl⟩, ?_⟩
    intro hbare
    apply hne
    have hchars := congrArg String.toList hbare
    rw [String.toList_append] at hchars
    exact String.toList_injective (List.append_left_eq_self.mp hchars)
  · intro h
    obtain ⟨⟨stem, rfl⟩, hbare⟩ := h
    refine ⟨stem, ?_, rfl⟩
    intro hnone
    rw [hnone] at hbare
    exact hbare String.empty_append

/-- **The watched files of a directory that are sources**, in their order. -/
theorem filter_watched {fs : Files} (hdistinct : (fs.entries.map Prod.fst).Nodup) (source : Path)
    (deep : Bool) :
    (fs.filesBelow source deep isWatchedName).filter (fun p => p.name != sourceSuffix)
      = fs.filesBelow source deep isSourceName := by
  refine eq_of_sorted ((filesBelow_sorted hdistinct source deep isWatchedName).filter _)
    (filesBelow_sorted hdistinct source deep isSourceName) fun file => ?_
  have hlast : ∀ above name, (within source (above ++ [name])).name = name := by
    intro above name
    simp [within, Path.name, ← List.append_assoc]
  simp only [List.mem_filter, Glob.mem_filesBelow_iff, isSourceName_eq, Bool.and_eq_true]
  constructor
  · intro h
    obtain ⟨⟨above, name, content, mtime, executable, hmem, hdeep, hname, rfl⟩, hbare⟩ := h
    rw [hlast] at hbare
    exact ⟨above, name, content, mtime, executable, hmem, hdeep, ⟨hname, hbare⟩, rfl⟩
  · intro h
    obtain ⟨above, name, content, mtime, executable, hmem, hdeep, ⟨hname, hbare⟩, rfl⟩ := h
    refine ⟨⟨above, name, content, mtime, executable, hmem, hdeep, hname, rfl⟩, ?_⟩
    rw [hlast]
    exact hbare

/-! ## §2. A batch, and what it attempts. -/

/-- The attempts that were made, each a source and a target, and what became of
them. -/
structure Journal where
  attempts : List (Path × Path) := []
  report : Compiler.Report := {}

/-- Compile a file to a target, and note the attempt. -/
def Journal.attempt (journal : Journal) (file target : Path) : Action Journal := do
  let report ← compileEntry journal.report file target
  return ⟨journal.attempts ++ [(file, target)], report⟩

/-- The whole batch, with each directory listed when it is reached. -/
def Batch.walked (b : Batch) : Action Journal :=
  walkDown b.deep Journal.attempt Files.maxLevels b.source b.output {}

/-- Tell what became of the attempts; give them, and whether none failed. -/
def told (work : Action Journal) : Action (List (Path × Path) × Bool) := do
  let journal ← work
  printReport journal.report
  return (journal.attempts, journal.report.ok)

/-- What a watch does with the watched files that are sources. -/
def watchWork (files : Files) (s : Settings) (paths : List Path) : List (Path × Path) :=
  (paths.filter fun p => p.name != sourceSuffix).map fun p =>
    (p, (watchTarget files s p).getD (p.withSuffix outputSuffix))

/-! ## §3. Noting attempts changes nothing. -/

namespace Batch

variable {b : Batch} {s s' : Session} {journal journal' : Journal}

/-- What is reported of an attempt is what is reported without noting it. -/
theorem compileEntry_eq (journal : Journal) (file target : Path) :
    compileEntry journal.report file target = Journal.report <$> journal.attempt file target := by
  unfold Journal.attempt
  simp

/-- **A batch that notes its attempts** does the same as one that does not. -/
theorem run_walked {report : Compiler.Report}
    (h : s.run (walkDown b.deep compileEntry Files.maxLevels b.source b.output {})
      = (.ok report, s')) :
    ∃ attempts, s.run b.walked = (.ok ⟨attempts, report⟩, s') := by
  have hmap : walkDown b.deep compileEntry Files.maxLevels b.source b.output {}
      = Journal.report <$> b.walked :=
    Walk.walkDown_map compileEntry_eq Files.maxLevels b.source b.output {}
  rw [hmap, map_eq_pure_bind] at h
  obtain ⟨journal, s₁, hwalked, hend⟩ := Session.ok_of_bind s h
  injection hend with hreport hsession
  injection hreport with hreport
  subst hreport hsession
  exact ⟨journal.attempts, hwalked⟩

/-- **The attempts of a run** are the listed files, whatever becomes of them. -/
theorem run_attempts (files : List Path)
    (h : s.run (files.foldlM (treatIn b.source b.output Journal.attempt) journal)
      = (.ok journal', s')) :
    journal'.attempts
      = journal.attempts ++ files.map fun file => (file, targetOf b.source b.output file) := by
  induction files generalizing s journal with
  | nil =>
    injection h with hjournal
    injection hjournal with hjournal
    rw [List.map_nil, List.append_nil, ← hjournal]
  | cons file rest ih =>
    rw [List.foldlM_cons] at h
    obtain ⟨journal₁, s₁, hfirst, hrest⟩ := Session.ok_of_bind s h
    obtain ⟨report, s₂, -, hnoted⟩ := Session.ok_of_bind s hfirst
    injection hnoted with hnoted
    injection hnoted with hnoted
    rw [ih hrest, ← hnoted]
    simp

/-- While a batch is worked on, the generator stays and the store is changed only
where the batch may change it. -/
structure Underway (b : Batch) (start s : Session) : Prop where
  generator : s.compiler.generator = start.compiler.generator
  worked : WorkedOn start.files b.source b.output b.deep s.files

/-- **One attempt** leaves the batch underway. -/
theorem treats {start : Session} (hleaves : LeavesFiles start.compiler.generator) (b : Batch) :
    Treats start.files b.source b.output b.deep Journal.attempt
      (fun s _ => Underway b start s) := by
  have hsession : ∀ {s s' : Session} {journal journal' : Journal} {file : Path},
      s.run (treatIn b.source b.output Journal.attempt journal file) = (.ok journal', s') →
      s' = (s.run (compileEntry journal.report file (targetOf b.source b.output file))).2 := by
    intro s s' journal journal' file hrun
    obtain ⟨report, s₁, hentry, hrest⟩ := Session.ok_of_bind s hrun
    rw [hentry]
    exact (congrArg Prod.snd hrest).symm
  constructor
  · intro s journal h
    exact h.worked
  · intro s s' journal journal' file hcovered h hrun
    rw [hsession hrun]
    exact ⟨(compileEntry_generator s journal.report file _).trans h.generator,
      h.worked.trans hcovered (compileEntry_kept (h.generator ▸ hleaves) journal.report file _)⟩
  · intro s s' journal journal' file hcovered h hrun
    rw [hsession hrun]
    exact (compileEntry_kept (h.generator ▸ hleaves) journal.report file _).mono
      (fun _ _ => trivial) fun _ _ => trivial

end Batch

/-! ## §4. What the settings ask for. -/

/-- **What a watch covers** is what the batch lists. -/
theorem watchWork_of_batch {s : Settings} {files : Files} {b : Batch}
    (hbatch : batch? files s = some b) (hdistinct : (files.entries.map Prod.fst).Nodup) :
    watchWork files s (files.filesBelow b.source b.deep isWatchedName)
      = (files.filesBelow b.source b.deep isSourceName).map fun file =>
          (file, targetOf b.source b.output file) := by
  unfold watchWork
  rw [filter_watched hdistinct]
  simp only [watchTarget_of_batch hbatch]

/-- **What the settings ask for is done** by compiling the directory of the batch and
telling what became of it. -/
theorem compileTarget_of_batch {s : Settings} {b : Batch} {st st' : Session} {good : Bool}
    (hbatch : batch? st.files s = some b) (hrun : st.run (compileTarget s) = (.ok good, st')) :
    st.files.look b.source = .ok (some .directory)
      ∧ ∃ report s₁, st.run (compileDirectory b.source b.output b.deep) = (.ok report, s₁)
          ∧ s₁.run (printReport report) = (.ok (), st') ∧ report.ok = good := by
  unfold compileTarget at hrun
  rcases batch?_cases hbatch with ⟨hinput, rfl⟩ | ⟨input, hinput, hdirectory, rfl⟩
  · rw [hinput] at hrun
    obtain ⟨report, s₁, hproject, hrest⟩ := Session.ok_of_bind st hrun
    obtain ⟨u, s₂, hprint, hend⟩ := Session.ok_of_bind s₁ hrest
    -- a project without its directory of sources fails, and this run did not
    have hlook : st.files.look s.projectSource = .ok (some .directory) := by
      by_contra hother
      rw [← here_join s.projectSource] at hother
      obtain ⟨e, herror⟩ := run_compileProject_of_other st Path.here s.projectSource
        s.projectOutput hother
      rw [hproject] at herror
      exact absurd (congrArg Prod.fst herror) (by simp)
    rw [run_compileProject_of_directory st Path.here s.projectSource s.projectOutput
      ((here_join s.projectSource).symm ▸ hlook), here_join, here_join] at hproject
    injection hend with hgood hst
    injection hgood with hgood
    exact ⟨hlook, report, s₁, hproject, hst ▸ hprint, hgood⟩
  · rw [hinput] at hrun
    rw [Session.run_bind_of_ok st st.run_get, if_pos hdirectory] at hrun
    obtain ⟨report, s₁, hfolder, hrest⟩ := Session.ok_of_bind st hrun
    obtain ⟨u, s₂, hprint, hend⟩ := Session.ok_of_bind s₁ hrest
    injection hend with hgood hst
    injection hgood with hgood
    exact ⟨Files.look_of_isDirectory hdirectory, report, s₁, hfolder, hst ▸ hprint, hgood⟩

/-! ## §5. The same work. -/

/-- A batch that gave this journal is told of in the same way. -/
theorem run_told {work : Action Journal} {st s₁ st' : Session} {attempts : List (Path × Path)}
    {report : Compiler.Report} (hwork : st.run work = (.ok ⟨attempts, report⟩, s₁))
    (hprint : s₁.run (printReport report) = (.ok (), st')) :
    st.run (told work) = (.ok (attempts, report.ok), st') := by
  unfold told
  rw [Session.run_bind_of_ok st hwork, Session.run_bind_of_ok s₁ hprint]
  rfl

/-- **A batch that comes to an end** can be told by its attempts, whatever the formatter
does. -/
theorem run_told_walked {s : Settings} {b : Batch} {st st' : Session} {good : Bool}
    (hbatch : batch? st.files s = some b) (hrun : st.run (compileTarget s) = (.ok good, st')) :
    st.files.look b.source = .ok (some .directory)
      ∧ ∃ journal s₁, st.run b.walked = (.ok journal, s₁)
          ∧ st.run (told b.walked) = (.ok (journal.attempts, good), st') := by
  obtain ⟨hlook, report, s₁, hreport, hprint, rfl⟩ := compileTarget_of_batch hbatch hrun
  rw [run_compileDirectory_of_directory st b.source b.output b.deep hlook] at hreport
  obtain ⟨attempts, hwalked⟩ := Batch.run_walked hreport
  exact ⟨hlook, ⟨attempts, report⟩, s₁, hwalked, run_told hwalked hprint⟩

/-- **A watch and a batch cover the same work.**  In a run of a batch that comes to an
end, in a tree that the formatter leaves alone, the sources and targets that are
attempted are those of the watched files, in their order. -/
theorem watch_covers_batch {s : Settings} {st st' : Session} {b : Batch} {good : Bool}
    (htree : IsTree st.files) (hleaves : LeavesFiles st.compiler.generator)
    (hbatch : batch? st.files s = some b)
    (hrun : st.run (compileTarget s) = (.ok good, st')) :
    ∃ paths, watchedFiles st.files s = .ok paths
      ∧ st.run (told b.walked) = (.ok (watchWork st.files s paths, good), st') := by
  obtain ⟨hlook, journal, s₁, hwalked, htold⟩ := run_told_walked hbatch hrun
  have hsource := Files.look_eq_ok_some hlook
  have hunder : Batch.Underway b st st := ⟨rfl, Files.Kept.refl _ _ _⟩
  -- the walk has seen everything, and so the list can be made
  have hopen : Glob.Explorable st.files b.source b.deep :=
    fun names entry hat hnames => (b.treats hleaves).seen htree hsource hunder hwalked names hat hnames
  have hlist : st.files.glob b.source b.deep isWatchedName = .ok _ :=
    Glob.glob_of_tree htree hopen (Files.stat_eq_ok hsource).2
  refine ⟨_, (watchedFiles_of_batch hbatch hlook).trans hlist, ?_⟩
  rw [htold, watchWork_of_batch hbatch htree.distinct]
  have hfollows := (b.treats hleaves).walkDown_follows htree (Files.hasNull_of_stat hsource) {}
    hunder hsource Files.maxLevels
  rw [Batch.run_attempts _ (hfollows.run_eq hwalked)]
  rfl

/-- A directory with a hidden source, a file that is all suffix, a source with two
dots that is no page, an output inside it that has a source of its own, and a
directory that is named like a source. -/
def oddNames : Session :=
  minifying (holding
    [(["d", ".h.tml"], "p: one".toUTF8, 10), (["d", ".tml"], "p: two".toUTF8, 11),
      (["d", "a.b.tml"], "p[".toUTF8, 12), (["d", "out", "c.tml"], "p: three".toUTF8, 13),
      (["d", "x.tml", "y.tml"], "p: four".toUTF8, 14)])

/-- The settings for that directory. -/
def oddFolder : Settings :=
  { Watching.oneFile with
    input := some (inHere ["d"]), output := some (inHere ["d", "out"]), recursive := true }

theorem batch?_oddNames : batch? oddNames.files oddFolder
    = some ⟨inHere ["d"], some (inHere ["d", "out"]), true⟩ := by
  decide +kernel

/-- What is watched of that directory. -/
theorem watchedFiles_oddNames : watchedFiles oddNames.files oddFolder
    = .ok [inHere ["d", ".h.tml"], inHere ["d", ".tml"], inHere ["d", "a.b.tml"],
        inHere ["d", "out", "c.tml"], inHere ["d", "x.tml", "y.tml"]] := by
  decide +kernel

theorem watch_covers_batch_odd_names :
    ∃ paths st', watchedFiles oddNames.files oddFolder = .ok paths
      ∧ inHere ["d", ".tml"] ∈ paths
      ∧ watchWork oddNames.files oddFolder paths
          = [(inHere ["d", ".h.tml"], inHere ["d", "out", ".h.html"]),
              (inHere ["d", "a.b.tml"], inHere ["d", "out", "a.b.html"]),
              (inHere ["d", "out", "c.tml"], inHere ["d", "out", "out", "c.html"]),
              (inHere ["d", "x.tml", "y.tml"], inHere ["d", "out", "x.tml", "y.html"])]
      ∧ oddNames.run (told (Batch.walked ⟨inHere ["d"], some (inHere ["d", "out"]), true⟩))
          = (.ok (watchWork oddNames.files oddFolder paths, false), st') := by
  have hgood : (oddNames.run (compileTarget oddFolder)).1 = .ok false := by decide +kernel
  rcases hrun : oddNames.run (compileTarget oddFolder) with ⟨result, st'⟩
  rw [hrun] at hgood
  have hgood : result = .ok false := hgood
  subst hgood
  obtain ⟨paths, hpaths, hwalk⟩ := watch_covers_batch (by decide +kernel)
    minifier_steady.leavesFiles batch?_oddNames hrun
  have hlist := watchedFiles_oddNames
  rw [hpaths] at hlist
  injection hlist with hlist
  subst hlist
  exact ⟨_, st', hpaths, by decide, by decide +kernel, hwalk⟩

/-- A host whose one command gives back what it is given, and writes a source. -/
def plantingHost : Tool.Host := fun files r =>
  .finished 0 r.input .empty
    (some (files.apply (.write (inHere ["d", "z", "n.tml"]) "p: new".toUTF8 (.whole 20) false)))

/-- A session with such a command for a formatter; the directory for the new source is
there. -/
def planting : Session where
  compiler :=
    { generator :=
        { options := {}
          formatter := Formatter.command plantingHost
            ["sh", "-c", "printf 'p: new' > d/z/n.tml; cat"] Formatter.defaultTimeout }
      cache := Cache.empty 1 (.whole 60) }
  files := holding [(["d", "a.tml"], "p: one".toUTF8, 10), (["d", "z", "k"], "".toUTF8, 11)]

/-- A directory with a source and a link to another directory, in which there is one
too. -/
def linking : Session :=
  minifying { holding [(["d", "a.tml"], "p: one".toUTF8, 10), (["e", "b.tml"], "p: two".toUTF8, 11)]
    with links := [(["w", "d", "l"], inHere ["..", "e"])] }

/-- The settings for a directory and all below it. -/
def deepFolder : Settings :=
  { Watching.oneFile with input := some (inHere ["d"]), recursive := true }

/-- **A batch may attempt more** than was there to be watched: a source that the formatter
has written meanwhile, and one that is below a link. -/
theorem batch_attempts_more :
    watchedFiles planting.files deepFolder = .ok [inHere ["d", "a.tml"]]
      ∧ (planting.run (compileTarget deepFolder)).1 = .ok true
      ∧ (planting.run (told (Batch.walked ⟨inHere ["d"], none, true⟩))).1
          = .ok ([(inHere ["d", "a.tml"], inHere ["d", "a.html"]),
              (inHere ["d", "z", "n.tml"], inHere ["d", "z", "n.html"])], true)
      ∧ watchedFiles linking.files deepFolder = .ok [inHere ["d", "a.tml"]]
      ∧ (linking.run (compileTarget deepFolder)).1 = .ok true
      ∧ (linking.run (told (Batch.walked ⟨inHere ["d"], none, true⟩))).1
          = .ok ([(inHere ["d", "a.tml"], inHere ["d", "a.html"]),
              (inHere ["d", "l", "b.tml"], inHere ["d", "l", "b.html"])], true) := by
  decide +kernel

end Offside.CommandLine
