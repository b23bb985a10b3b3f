/-
  Offside.Proofs.ReportedFailures
  ───────────────────────────────
  Work of which nothing is left to fail but what is told to the user.

  A run compiles what its settings point at, once or again and again.  Four
  things can end it without a word: a generator that gives up (`Dependable`
  rules that out), a path that cannot be used at all, a source that is not text
  (`Fit` rules out both), and a directory that is so far down that the stack does
  not reach (`Servable` rules it out, for the files as they are when the work begins
  or at each poll of a watch).  What the work itself writes never gets in its way,
  since it stands where only pages stand (`PageSpot`).

  Main results:
    · `compileTarget_failsReported`  compiling once fails only in reported ways;
    · `watchOn_reported`             and so does a watch.
-/
import Offside.CommandLine.Run
import Offside.Proofs.DirectoryRun
import Offside.Proofs.FormatterOutcomes
import Offside.Proofs.PageShape
import Offside.Proofs.Watching

namespace Offside

/-! ## §1. Generators that can be relied on. -/

namespace Markup

open Document

mutual

/-- No line of a conforming node is deeper than tags may nest. -/
theorem depthOf_le_maxDepth {value : AttributeValue → Bool} {depth : Nat} (node : Node)
    (hdepth : depth ≤ maxDepth) (h : conforms value (depth + 1) node = true) :
    depthOf depth node ≤ maxDepth := by
  cases node with
  | doctype name => exact Nat.zero_le _
  | text content => exact hdepth
  | void tag => exact hdepth
  | element tag children =>
    simp only [conforms, Bool.and_eq_true, decide_eq_true_eq] at h
    obtain ⟨⟨⟨hlevel, -⟩, -⟩, hchildren⟩ := h
    unfold depthOf
    split
    next => exact hdepth
    next => exact max_le hdepth (depthOfAll_le_maxDepth children hlevel hchildren)

theorem depthOfAll_le_maxDepth {value : AttributeValue → Bool} {depth : Nat} (nodes : List Node)
    (hdepth : depth ≤ maxDepth) (h : allConform value (depth + 1) nodes = true) :
    depthOfAll depth nodes ≤ maxDepth := by
  cases nodes with
  | nil => exact Nat.zero_le _
  | cons node rest =>
    simp only [allConform, Bool.and_eq_true] at h
    unfold depthOfAll
    exact max_le (depthOf_le_maxDepth node hdepth h.1) (depthOfAll_le_maxDepth rest hdepth h.2)

end

/-- The layout needs no more spaces than there is memory for, however deep a page
is. -/
def Narrow (room : Text.Room) (o : Options) : Prop :=
  o.minify = true ∨ o.indentStyle = .tabs
    ∨ maxDepth * o.indentWidth ≤ min room.spaces Text.maxLength

instance (room : Text.Room) (o : Options) : Decidable (Narrow room o) :=
  inferInstanceAs (Decidable (_ ∨ _ ∨ _))

/-- There is room for as many spaces as fit into memory and into a text. -/
theorem tooWide?_of_le {room : Text.Room} {count : Nat}
    (h : count ≤ min room.spaces Text.maxLength) : Text.tooWide? room count = none := by
  obtain ⟨hroom, hlength⟩ := le_min_iff.mp h
  unfold Text.tooWide?
  rw [if_neg (by simp; omega), if_neg (by omega)]

/-- **A page that is read** can be indented by a narrow layout. -/
theorem overflow?_of_narrow {room : Text.Room} {o : Options} (h : Narrow room o) {source : String}
    {forest : List Node} (hparse : parse source = .ok forest) : overflow? room o forest = none := by
  have hdepth : depthOfAll 0 forest ≤ maxDepth :=
    depthOfAll_le_maxDepth forest (Nat.zero_le _) (conforms_of_parse hparse)
  unfold overflow?
  rcases h with hminify | htabs | hwidth
  · simp [hminify]
  · simp [htabs]
  · simp only
    split
    next => rfl
    next =>
      have hone : o.indentWidth ≤ min room.spaces Text.maxLength :=
        (Nat.le_mul_of_pos_left _ (by decide)).trans hwidth
      have hall : depthOfAll 0 forest * o.indentWidth ≤ min room.spaces Text.maxLength :=
        (Nat.mul_le_mul_right _ hdepth).trans hwidth
      rw [← Nat.cast_mul, tooWide?_of_le hone, tooWide?_of_le hall]
      rfl

end Markup

/-- An outcome that is a refusal or a text, and that changes no file. -/
def Tool.Outcome.IsOrderly (files : Files) : Tool.Outcome → Prop
  | .nullInWord => False
  | .badTimeout _ => False
  | .finished _ stdout stderr after =>
    (decoded? stdout).isSome ∧ (decoded? stderr).isSome ∧ after.getD files = files
  | _ => True

namespace CommandLine

open Compiler Session Watching

/-- The generator that the settings ask for never gives up: the layout is narrow,
and a formatter command, if there is one, ends in order. -/
structure Dependable (room : Text.Room) (host : Tool.Host) (s : Settings) : Prop where
  narrow : Markup.Narrow room s.options
  orderly : s.options.minify = true ∨ s.options.useFormatter = false
    ∨ ∃ timeout, s.formatTimeout = .value timeout ∧ ∀ files html,
        (host files ⟨s.formatCommand, html, .real timeout⟩).IsOrderly files

/-- A command that ends in order gives a text or refuses, and changes no file. -/
theorem format_orderly {host : Tool.Host} {command : List String} {timeout : Time} {files : Files}
    {html : String} (h : (host files ⟨command, html.toUTF8, timeout⟩).IsOrderly files) :
    (∀ e, ((Formatter.command host command timeout).format files html).result = .error e →
        ∃ reason, e = .error reason)
      ∧ ((Formatter.command host command timeout).format files html).files.getD files = files := by
  unfold Formatter.command
  simp only
  split
  next => exact ⟨fun e he => ⟨.noCommand, by injection he with he; exact he.symm⟩, rfl⟩
  next =>
    generalize host files ⟨command, html.toUTF8, timeout⟩ = outcome at h ⊢
    cases outcome with
    | nullInWord => exact h.elim
    | badTimeout reason => exact h.elim
    | notFound => exact ⟨fun e he => ⟨_, by injection he with he; exact he.symm⟩, rfl⟩
    | cannotStart error => exact ⟨fun e he => ⟨_, by injection he with he; exact he.symm⟩, rfl⟩
    | timedOut => exact ⟨fun e he => ⟨_, by injection he with he; exact he.symm⟩, rfl⟩
    | finished code stdout stderr after =>
      obtain ⟨hout, herr, hfiles⟩ := h
      obtain ⟨out, hout⟩ := Option.isSome_iff_exists.mp hout
      obtain ⟨err, herr⟩ := Option.isSome_iff_exists.mp herr
      refine ⟨fun e he => ?_, hfiles⟩
      simp only [Formatter.ofOutcome, hout, herr] at he
      split at he
      next => exact absurd he (by simp)
      next =>
        injection he with he
        exact ⟨_, he.symm⟩

/-- **The generator of dependable settings** makes a page of every source that can be
read, and leaves the files alone. -/
theorem Dependable.generate {room : Text.Room} {host : Tool.Host} {s : Settings}
    (h : Dependable room host s) {source : String} {forest : List Node}
    (hparse : Document.parse source = .ok forest) (files : Files) :
    (∃ html, ((newCompiler room host s).generator.generate files forest none).result = .ok html)
      ∧ ((newCompiler room host s).generator.generate files forest none).files.getD files
          = files := by
  have hoverflow : Markup.overflow? room s.options forest = none :=
    Markup.overflow?_of_narrow h.narrow hparse
  have hgenerate : (newCompiler room host s).generator.generate files forest none
      = if s.options.minify || !s.options.useFormatter
        then { result := .ok (plainText s.options forest) }
        else settled (markup s.options forest)
          ((newFormatter host s).format files (markup s.options forest)) := by
    unfold Generator.generate
    simp only [newCompiler, Option.getD_none, hoverflow]
    rfl
  rw [hgenerate]
  by_cases hplain : (s.options.minify || !s.options.useFormatter) = true
  · rw [if_pos hplain]
    exact ⟨⟨_, rfl⟩, rfl⟩
  · rw [if_neg hplain]
    simp only [Bool.or_eq_true, Bool.not_eq_true', not_or] at hplain
    obtain ⟨timeout, htimeout, horderly⟩ := (h.orderly.resolve_left hplain.1).resolve_left hplain.2
    have hformatter : newFormatter host s = .command host s.formatCommand (.real timeout) := by
      unfold newFormatter
      rw [htimeout]
    obtain ⟨hresult, hfiles⟩ := format_orderly (horderly files (markup s.options forest).toUTF8)
    rw [hformatter]
    -- what the command does is settled by these two facts, whatever it is
    generalize (Formatter.command host s.formatCommand (.real timeout)).format files
      (markup s.options forest) = formatted at hresult hfiles ⊢
    unfold settled
    cases hformatted : formatted.result with
    | ok text => exact ⟨⟨text, rfl⟩, hfiles⟩
    | error e =>
      obtain ⟨reason, rfl⟩ := hresult e hformatted
      exact ⟨⟨_, rfl⟩, hfiles⟩

theorem Dependable.steady {room : Text.Room} {host : Tool.Host} {s : Settings}
    (h : Dependable room host s) :
    Steady (newCompiler room host s).generator := by
  refine ⟨fun files source e he => ?_, fun files source => ?_⟩
  · unfold pageFrom at he
    cases hparse : Document.parse source with
    | error e' => simp [hparse] at he
    | ok forest =>
      obtain ⟨⟨html, hhtml⟩, -⟩ := h.generate hparse files
      simp [hparse, hhtml, Except.mapError] at he
  · unfold filesAfter
    cases hparse : Document.parse source with
    | error e => rfl
    | ok forest => exact (h.generate hparse files).2

/-! ## §2. Directories that the settings ask for. -/

theorem isWatchedName_iff {name : String} :
    isWatchedName name = true ↔ ∃ stem, name = stem ++ sourceSuffix := by
  unfold isWatchedName
  rw [String.endsWith_eq_endsWith_toSlice, String.Slice.endsWith_string_iff]
  constructor
  · intro h
    obtain ⟨stem, hstem⟩ := h
    refine ⟨String.ofList stem, String.toList_injective ?_⟩
    rw [String.toList_append, String.toList_ofList]
    simpa using hstem.symm
  · intro h
    obtain ⟨stem, rfl⟩ := h
    simp

theorem isWatchedName_of_isSourceName {name : String} (h : isSourceName name = true) :
    isWatchedName name = true := by
  obtain ⟨stem, -, rfl⟩ := Directory.isSourceName_iff.mp h
  exact isWatchedName_iff.mpr ⟨stem, rfl⟩

/-- A name that is watched is not that of a page. -/
theorem page_ne_watched {stem name : String} (h : isWatchedName name = true) :
    stem ++ outputSuffix ≠ name := by
  obtain ⟨stem', rfl⟩ := isWatchedName_iff.mp h
  intro hsame
  -- the fourth character from the end differs
  have hback := congrArg (fun text : String => text.toList.reverse) hsame
  simp [outputSuffix, sourceSuffix] at hback

/-- The files of a directory that are to be compiled, and where they go. -/
structure Batch where
  source : Path
  output : Option Path
  deep : Bool
  deriving DecidableEq

/-- The batch that the settings ask for: the project, or a directory. -/
def batch? (files : Files) (s : Settings) : Option Batch :=
  match s.input with
  | none => some ⟨s.projectSource, some s.projectOutput, true⟩
  | some input =>
    if files.isDirectory input then some ⟨input, s.output, s.recursive⟩ else none

theorem batch?_of_directory {files : Files} {s : Settings} {input : Path}
    (hinput : s.input = some input) (hdirectory : files.isDirectory input = true) :
    batch? files s = some ⟨input, s.output, s.recursive⟩ := by
  unfold batch?
  rw [hinput]
  exact if_pos hdirectory

section Asked

variable {s : Settings} {files : Files} {b : Batch} (hbatch : batch? files s = some b)
include hbatch

/-- The batch of the settings is the project or a directory. -/
theorem batch?_cases :
    (s.input = none ∧ b = ⟨s.projectSource, some s.projectOutput, true⟩)
      ∨ ∃ input, s.input = some input ∧ files.isDirectory input = true
          ∧ b = ⟨input, s.output, s.recursive⟩ := by
  unfold batch? at hbatch
  cases hinput : s.input with
  | none =>
    simp only [hinput] at hbatch
    exact .inl ⟨rfl, (Option.some.inj hbatch).symm⟩
  | some input =>
    simp only [hinput] at hbatch
    split at hbatch
    next hdirectory => exact .inr ⟨input, rfl, hdirectory, (Option.some.inj hbatch).symm⟩
    next => exact absurd hbatch (by simp)

/-- A watch lists the directory of the batch. -/
theorem watchedFiles_of_batch (hlook : files.look b.source = .ok (some .directory)) :
    watchedFiles files s = files.glob b.source b.deep isWatchedName := by
  unfold watchedFiles
  rcases batch?_cases hbatch with ⟨hinput, rfl⟩ | ⟨input, hinput, -, rfl⟩
  · rw [hinput]
    simp only [hlook]
    rfl
  · rw [hinput]
    simp only [hlook]
    rfl

/-- A watch puts a page where the batch puts it. -/
theorem watchTarget_of_batch (path : Path) :
    (watchTarget files s path).getD (path.withSuffix outputSuffix)
      = targetOf b.source b.output path := by
  unfold watchTarget
  rcases batch?_cases hbatch with ⟨hinput, rfl⟩ | ⟨input, hinput, hdirectory, rfl⟩
  · rw [hinput]
    rfl
  · rw [hinput]
    simp only [hdirectory, if_true]
    cases s.output <;> rfl

/-- So does the target of every file below the directory. -/
theorem targetFor_of_batch {names : List String} (hne : names ≠ []) :
    targetFor s (Directory.within b.source names)
      = targetOf b.source b.output (Directory.within b.source names) := by
  unfold targetFor
  rcases batch?_cases hbatch with ⟨hinput, rfl⟩ | ⟨input, hinput, hdirectory, rfl⟩
  · rw [hinput]
  · have hother : Directory.within input names ≠ input := by
      intro hsame
      have hparts := congrArg Path.parts hsame
      exact hne (List.append_right_eq_self.mp hparts)
    rw [hinput]
    simp only [if_neg hother]
    cases s.output <;> rfl

end Asked

/-- **What is watched** is the directory of the batch, a single file, or nothing. -/
theorem watchedFiles_cases {s : Settings} {files : Files} {paths : List Path}
    (h : watchedFiles files s = .ok paths) :
    (∃ b, batch? files s = some b ∧ files.look b.source = .ok (some .directory))
      ∨ paths = []
      ∨ ∃ input found, s.input = some input ∧ batch? files s = none
          ∧ files.look input = .ok found ∧ found ≠ some .directory ∧ paths = [input] := by
  unfold watchedFiles at h
  split at h
  next hinput =>
    obtain ⟨found, hlook, h⟩ := Glob.ok_of_bind h
    split at h
    next => exact .inl ⟨⟨s.projectSource, some s.projectOutput, true⟩, by rw [batch?, hinput], hlook⟩
    next => exact .inr (.inl (Except.ok.inj h).symm)
  next input hinput =>
    obtain ⟨found, hlook, h⟩ := Glob.ok_of_bind h
    split at h
    next =>
      have hdirectory : files.isDirectory input = true := by
        simp [Files.isDirectory, Files.look_eq_ok_some hlook]
      exact .inl ⟨_, batch?_of_directory hinput hdirectory, hlook⟩
    next hother =>
      refine .inr (.inr ⟨input, found, hinput, ?_, hlook, hother, (Except.ok.inj h).symm⟩)
      unfold batch?
      rw [hinput]
      refine if_neg fun hdirectory => hother ?_
      rw [Files.look_of_isDirectory hdirectory] at hlook
      exact (Except.ok.inj hlook).symm

/-! ## §3. Files that can be worked on. -/

/-- The files that the settings point at: those below a directory, or the input. -/
def aims (s : Settings) (files : Files) : List Path :=
  match batch? files s with
  | some b => files.filesBelow b.source b.deep isWatchedName
  | none => s.input.toList

/-- What a file must be like so that it cannot end the work. -/
structure Fit (s : Settings) (files : Files) (path : Path) : Prop where
  /-- The path has no null character in it, and does not lead round in a circle. -/
  resolved : files.unresolved? path = none
  /-- Nor has the target a null character in it. -/
  named : (targetFor s path).hasNull = false
  /-- The target does not lie too deep. -/
  shallow : path.parts.length + (targetFor s path).parts.length ≤ Files.maxMissing
  /-- The file is text, along the path as it is given and as it is resolved. -/
  text : ∀ p ∈ [path, files.resolve path],
    ∀ v ∈ files.version? (files.placeOf p), (decoded? v.1).isSome = true

instance (s : Settings) (files : Files) (path : Path) : Decidable (Fit s files path) :=
  decidable_of_iff
    (files.unresolved? path = none ∧ (targetFor s path).hasNull = false
      ∧ path.parts.length + (targetFor s path).parts.length ≤ Files.maxMissing
      ∧ ∀ p ∈ [path, files.resolve path],
          ∀ v ∈ files.version? (files.placeOf p), (decoded? v.1).isSome = true)
    ⟨fun ⟨hr, hn, hs, ht⟩ => ⟨hr, hn, hs, ht⟩, fun h => ⟨h.resolved, h.named, h.shallow, h.text⟩⟩

/-- A file stays fit where nothing is written. -/
theorem Fit.of_kept {s : Settings} {made written : Location → Prop} {a b : Files} {path : Path}
    (h : Fit s a path) (hkept : Files.Kept made written a b)
    (hspots : ∀ p ∈ [path, a.resolve path], ¬ written (a.placeOf p)) : Fit s b path where
  resolved := by
    rw [Files.unresolved?_eq_of_ground hkept.ground]
    exact h.resolved
  named := h.named
  shallow := h.shallow
  text := by
    intro p hp
    rw [Files.resolve_eq_of_ground hkept.ground] at hp
    rw [Files.placeOf_eq_of_ground hkept.ground, hkept.version? (hspots p hp)]
    exact h.text p hp

/-- What the files must be like so that none of those that the settings point at can
end the work.  A directory must be in a tree, and nothing in it so far down that the
stack does not reach. -/
structure Servable (s : Settings) (files : Files) : Prop where
  fit : ∀ path ∈ aims s files, Fit s files path
  tree : ∀ b ∈ batch? files s, Directory.IsTree files
  near : ∀ b ∈ batch? files s, ∀ names, Directory.InReach files b.source b.output b.deep names →
    names.length ≤ Directory.maxDescent

/-- Whether files can be worked on can be found out by looking at those that are
pointed at. -/
instance (s : Settings) (files : Files) : Decidable (Servable s files) :=
  decidable_of_iff
    ((∀ path ∈ aims s files, Fit s files path) ∧ (∀ b ∈ batch? files s, Directory.IsTree files)
      ∧ ∀ b ∈ batch? files s, ∀ names,
          Directory.InReach files b.source b.output b.deep names →
            names.length ≤ Directory.maxDescent)
    ⟨fun ⟨hf, ht, hn⟩ => ⟨hf, ht, hn⟩, fun h => ⟨h.fit, h.tree, h.near⟩⟩

/-- More files are listed when more names are accepted. -/
theorem mem_filesBelow_of_accept {fs : Files} {source file : Path} {deep : Bool}
    {accept accept' : String → Bool} (haccept : ∀ name, accept name = true → accept' name = true)
    (h : file ∈ fs.filesBelow source deep accept) : file ∈ fs.filesBelow source deep accept' := by
  obtain ⟨above, name, content, mtime, executable, hmem, hdeep, hname, hfile⟩ :=
    Glob.mem_filesBelow_iff.mp h
  exact Glob.mem_filesBelow_iff.mpr ⟨above, name, content, mtime, executable, hmem, hdeep,
    haccept name hname, hfile⟩

section Servable

variable {s : Settings} {b : Batch}

/-- **A directory that is asked for** can be compiled: its sources are among the files
that are pointed at. -/
theorem Servable.workable {session : Session} (h : Servable s session.files)
    (hsteady : Steady session.compiler.generator)
    (hdated : session.compiler.cache.hasUndated session.now = false)
    (hbatch : batch? session.files s = some b) :
    Directory.Workable session b.source b.output b.deep := by
  have haimed : ∀ file, Directory.Covered session.files b.source b.deep file →
      Fit s session.files file ∧ targetFor s file = targetOf b.source b.output file := by
    intro file hcovered
    have hmem := mem_filesBelow_of_accept (fun _ => isWatchedName_of_isSourceName)
      (Directory.mem_filesBelow.mpr hcovered)
    obtain ⟨above, name, -, -, -, -, -, -, rfl⟩ := hcovered
    refine ⟨h.fit _ ?_, targetFor_of_batch hbatch (by simp)⟩
    rw [aims, hbatch]
    exact hmem
  refine ⟨h.tree b hbatch, ?_, ?_, ?_, h.near b hbatch, hsteady, hdated⟩
  · intro file hcovered
    exact (haimed file hcovered).1.text _ (by simp)
  · intro file hcovered
    obtain ⟨hfit, htarget⟩ := haimed file hcovered
    rw [← htarget]
    exact ⟨Files.hasNull_of_unresolved? hfit.resolved, hfit.named⟩
  · intro file hcovered
    obtain ⟨hfit, htarget⟩ := haimed file hcovered
    rw [← htarget]
    exact hfit.shallow

variable {files : Files}

/-- Files cannot be listed only where the store refuses it. -/
theorem Servable.watchedFiles_refuses (h : Servable s files) {e : FileError}
    (he : watchedFiles files s = .error e) : e.isRefusal = true := by
  have hglob : ∀ b, batch? files s = some b → files.look b.source = .ok (some .directory) →
      files.glob b.source b.deep isWatchedName = .error e → e.isRefusal = true := by
    intro b hbatch hlook hglob
    refine Glob.glob_refuses (h.tree b hbatch) (Files.look_eq_ok_some hlook) ?_ hglob
    intro _ names hat
    have hnear := h.near b hbatch names (.inl (by simp [hat]))
    have hroom : Directory.maxDescent < Files.maxLevels := by decide
    omega
  unfold watchedFiles at he
  split at he
  next hinput =>
    rcases Glob.error_of_bind he with hlook | ⟨found, hlook, he⟩
    · exact Files.look_refuses hlook
    · split at he
      next => exact hglob _ (by rw [batch?, hinput]) hlook he
      next => exact absurd he (by simp [pure, Except.pure])
  next input hinput =>
    rcases Glob.error_of_bind he with hlook | ⟨found, hlook, he⟩
    · exact Files.look_refuses hlook
    · split at he
      next =>
        have hdirectory : files.isDirectory input = true := by
          simp [Files.isDirectory, Files.look_eq_ok_some hlook]
        exact hglob _ (batch?_of_directory hinput hdirectory) hlook he
      next => exact absurd he (by simp [pure, Except.pure])

end Servable

/-! ## §4. Failures that are reported. -/

/-- An action that fails only in ways that are told to the user. -/
def FailsReported {α : Type} (s : Session) (x : Action α) : Prop :=
  ∀ e, (s.run x).1 = .error e → e.isReported = true

section FailsReported

variable {α β : Type} {s s' : Session} {x : Action α} {f : α → Action β}

theorem failsReported_of_ok {a : α} (h : (s.run x).1 = .ok a) : FailsReported s x := by
  intro e he
  rw [h] at he
  exact absurd he (by simp)

theorem failsReported_throw {e : Failure} (h : e.isReported = true) :
    FailsReported s (throw e : Action α) := by
  intro e' he
  injection he with he
  exact he ▸ h

/-- One action after the other. -/
theorem FailsReported.bind (hx : FailsReported s x)
    (hf : ∀ a s', s.run x = (.ok a, s') → FailsReported s' (f a)) : FailsReported s (x >>= f) := by
  intro e he
  rcases hrun : s.run x with ⟨result, s'⟩
  cases result with
  | ok a =>
    rw [run_bind_of_ok s hrun] at he
    exact hf a s' hrun e he
  | error e' =>
    rw [run_bind_of_error s hrun] at he
    injection he with he
    exact he ▸ hx e' (by rw [hrun])

/-- Telling something of every item of a list never fails. -/
theorem run_forM_say (s : Session) (items : List α) (text : α → String) :
    ∃ told, s.run (items.forM fun item => Action.say (text item)) = (.ok (), s.tell told) := by
  induction items generalizing s with
  | nil => exact ⟨"", by rw [tell_empty]; rfl⟩
  | cons item rest ih =>
    obtain ⟨told, hrest⟩ := ih (s.tell (text item))
    refine ⟨text item ++ told, ?_⟩
    show s.run (Action.say (text item) >>= fun _ => _) = _
    rw [run_bind_of_ok s (s.run_say _), ← tell_tell]
    exact hrest

theorem printReport_failsReported (r : Compiler.Report) : FailsReported s (printReport r) := by
  obtain ⟨told, hcompiled⟩ := run_forM_say s r.compiled fun p => s!"Compiled {p.1} -> {p.2}\n"
  obtain ⟨told', hfailed⟩ := run_forM_say (s.tell told) r.failed
    fun p => failureText (some p.1) p.2
  refine failsReported_of_ok (a := ()) ?_
  unfold printReport
  rw [run_bind_of_ok s hcompiled, hfailed]

theorem lookAt?_failsReported (p : Path) : FailsReported s (Action.lookAt? p) := by
  intro e he
  rw [run_lookAt?] at he
  cases hlook : s.files.look p with
  | error e' =>
    rw [hlook] at he
    injection he with he
    exact he ▸ Files.look_refuses hlook
  | ok found => simp [hlook, Except.mapError] at he

/-- A file that is text can be read, or that it cannot is told. -/
theorem readSource_failsReported {p : Path} (hnull : p.hasNull = false)
    (htext : ∀ v ∈ s.files.version? (s.files.placeOf p), (decoded? v.1).isSome = true) :
    FailsReported s (readSource p) := by
  intro e he
  rw [run_readSource] at he
  unfold sourceText Files.read at he
  cases hstat : s.files.stat p with
  | error e' =>
    simp only [hstat] at he
    injection he with he
    exact he ▸ Files.stat_refuses hnull hstat
  | ok entry =>
    cases entry with
    | directory =>
      simp only [hstat] at he
      injection he with he
      exact he ▸ rfl
    | file content mtime executable =>
      obtain ⟨text, hdecoded⟩ :=
        Option.isSome_iff_exists.mp (htext _ (Files.version?_of_stat hstat))
      simp [hstat, hdecoded] at he

theorem compile_failsReported (hsteady : Steady s.compiler.generator) (source : String) :
    FailsReported s (compile source) := by
  intro e he
  obtain ⟨told, hrun⟩ := run_compile s source
  rw [hrun] at he
  exact hsteady.pageFrom_reported he

end FailsReported

/-! ## §5. Compiling once. -/

theorem here_join (p : Path) : Path.here.join p = p := by
  obtain ⟨anchor, parts⟩ := p
  cases anchor <;> rfl

/-- **A fit file** is compiled, or that it fails is told. -/
theorem Fit.compileFile_failsReported {s : Settings} {session : Session}
    (hsteady : Steady session.compiler.generator)
    (hdated : session.compiler.cache.hasUndated session.now = false) {path : Path}
    (h : Fit s session.files path) {output : Option Path}
    (houtput : output.getD (path.withSuffix outputSuffix) = targetFor s path) :
    FailsReported session (compileFile path output) := by
  intro e he
  refine compileFile_reported hsteady path output h.resolved ?_ ?_
    (Directory.isUndated_of_ageless (Directory.ageless_of_hasUndated hdated) _)
    (h.text _ (by simp)) he
  · rw [houtput]
    exact h.named
  · rw [houtput]
    exact (Nat.le_add_left _ _).trans h.shallow

section Once

variable {s : Settings} {session : Session} (h : Servable s session.files)
  (hsteady : Steady session.compiler.generator)
  (hdated : session.compiler.cache.hasUndated session.now = false)
include h hsteady hdated

/-- **A directory that is asked for** is compiled to a report, or the walk is refused
something. -/
theorem compileDirectory_failsReported {b : Batch} (hbatch : batch? session.files s = some b)
    (hsource : session.files.look b.source = .ok (some .directory)) :
    FailsReported session (compileDirectory b.source b.output b.deep) := by
  have hwork := h.workable hsteady hdated hbatch
  intro e he
  rcases Directory.compileDirectory_outcome hsource hwork with
    ⟨report, hreport, -⟩ | ⟨e', herror, hstuck⟩
  · exact absurd he (by simp [hreport])
  · rw [herror] at he
    injection he with he
    rw [← he]
    exact hwork.isRefusal hstuck

/-- The project is compiled, or it is told that it has no sources. -/
theorem compileProject_failsReported (hinput : s.input = none) :
    FailsReported session (compileProject Path.here s.projectSource s.projectOutput) := by
  unfold compileProject
  simp only [here_join]
  refine (lookAt?_failsReported _).bind fun found s' hrun => ?_
  rw [run_lookAt?] at hrun
  injection hrun with hlook hsession
  subst hsession
  cases found with
  | none => exact failsReported_throw rfl
  | some entry =>
    cases entry with
    | file content mtime executable => exact failsReported_throw rfl
    | directory =>
      have hlook : session.files.look s.projectSource = .ok (some .directory) := by
        cases hfound : session.files.look s.projectSource with
        | error e => simp [hfound, Except.mapError] at hlook
        | ok found => simpa [hfound, Except.mapError] using hlook
      exact compileDirectory_failsReported h hsteady hdated
        (b := ⟨s.projectSource, some s.projectOutput, true⟩) (by rw [batch?, hinput]) hlook

/-- **Compiling once** fails only in ways that are told to the user. -/
theorem compileTarget_failsReported : FailsReported session (compileTarget s) := by
  unfold compileTarget
  cases hinput : s.input with
  | none =>
    refine (compileProject_failsReported h hsteady hdated hinput).bind fun r s' _ => ?_
    exact (printReport_failsReported r).bind fun _ s' _ => failsReported_of_ok rfl
  | some input =>
    simp only
    refine (failsReported_of_ok (by rw [run_get])).bind fun got s' hget => ?_
    rw [run_get] at hget
    injection hget with hgot hsession
    injection hgot with hgot
    subst hgot hsession
    by_cases hdirectory : session.files.isDirectory input = true
    · rw [if_pos hdirectory]
      refine (compileDirectory_failsReported h hsteady hdated
        (batch?_of_directory hinput hdirectory) (Files.look_of_isDirectory hdirectory)).bind
        fun r s' _ => ?_
      exact (printReport_failsReported r).bind fun _ s' _ => failsReported_of_ok rfl
    · -- a single file is aimed at by itself
      rw [if_neg hdirectory]
      have hfit : Fit s session.files input := by
        refine h.fit input ?_
        rw [aims, batch?, hinput]
        simp [hdirectory]
      by_cases houtput : toOutput s = true
      · rw [if_pos houtput]
        refine (readSource_failsReported (Files.hasNull_of_unresolved? hfit.resolved)
          (hfit.text input (by simp))).bind fun text s' hread => ?_
        rw [run_readSource] at hread
        injection hread with _ hsession
        subst hsession
        exact (compile_failsReported hsteady text).bind fun html s' _ => failsReported_of_ok rfl
      · rw [if_neg houtput]
        refine (hfit.compileFile_failsReported hsteady hdated ?_).bind
          fun target s' _ => failsReported_of_ok rfl
        rw [targetFor, hinput]
        simp only [if_true]

end Once

/-! ## §6. One poll. -/

/-- A place where only a page can stand. -/
def PageSpot (loc : Location) : Prop := ∃ above stem, loc = above ++ [stem ++ outputSuffix]

/-- No page can stand where the name is watched. -/
theorem not_pageSpot {above : Location} {name : String} (hname : isWatchedName name = true) :
    ¬ PageSpot (above ++ [name]) := by
  rintro ⟨above', stem, hplace⟩
  have hlast := congrArg List.getLast? hplace
  rw [List.getLast?_concat, List.getLast?_concat] at hlast
  exact page_ne_watched hname (Option.some.inj hlast).symm

/-- A watched file of a tree is where no page can stand. -/
theorem not_pageSpot_of_watched {files : Files} (htree : Directory.IsTree files) {source : Path}
    {above : List String} {name : String} {entry : FileEntry}
    (hat : files.at? (files.placeOf source ++ (above ++ [name])) = some entry)
    (hname : isWatchedName name = true) :
    ∀ p ∈ [Directory.within source (above ++ [name]),
      files.resolve (Directory.within source (above ++ [name]))], ¬ PageSpot (files.placeOf p) := by
  have hplain := Directory.plain_of_at?_eq_some htree hat
  obtain ⟨hdot, hup⟩ := hplain name (by simp)
  have hwithin : Directory.within source (above ++ [name])
      = ⟨source.anchor, (source.parts ++ above) ++ [name]⟩ := by
    simp [Directory.within]
  simp only [List.forall_mem_cons, List.not_mem_nil, false_implies, implies_true, and_true]
  constructor
  · rw [Directory.placeOf_within htree.unlinked source hplain, ← List.append_assoc]
    exact not_pageSpot hname
  · obtain ⟨folder, hplace⟩ := Directory.exists_placeOf_resolve htree.unlinked htree.unlinked
      source.anchor (source.parts ++ above) hdot hup
    rw [hwithin, hplace]
    exact not_pageSpot hname

/-- The target of a file below a directory is where a page can stand. -/
theorem pageSpot_target {files : Files} (hlinks : files.links = []) (source : Path)
    (output : Option Path) {names : List String} (hne : names ≠ []) :
    PageSpot (files.placeOf (targetOf source output (Directory.within source names))) := by
  refine Directory.exists_placeOf_page hlinks ?_
  cases output with
  | none => simp [Directory.within, hne]
  | some out => simp [Directory.within, Path.join, Path.relativeTo, hne]

/-- **A file that a watch lists** in a tree is below the directory, and is where no page
can stand. -/
theorem exists_within_of_listed {files : Files} (htree : Directory.IsTree files) {source : Path}
    (hat : files.at? (files.placeOf source) = some .directory) {deep : Bool} {path : Path}
    (h : Glob.Listed files deep isWatchedName source path) :
    (∃ content mtime executable, files.stat path = .ok (.file content mtime executable))
      ∧ (∃ names, names ≠ [] ∧ path = Directory.within source names)
      ∧ ∀ p ∈ [path, files.resolve path], ¬ PageSpot (files.placeOf p) := by
  obtain ⟨content, mtime, executable, hlook⟩ := Glob.look_of_listed h
  obtain ⟨below, name, _, _, _, hthere, -, hname, rfl⟩ :=
    Glob.below_of_listed htree h (Directory.within_nil source).symm (by rwa [List.append_nil])
  exact ⟨⟨content, mtime, executable, Files.look_eq_ok_some hlook⟩, ⟨_, by simp, rfl⟩,
    not_pageSpot_of_watched htree hthere hname⟩

/-- A later session of the same poll: nothing was taken away, nothing but pages was
written, and the age of every remembered page can be told. -/
structure Serving (start s : Session) : Prop where
  generator : s.compiler.generator = start.compiler.generator
  dated : s.compiler.cache.hasUndated s.now = false
  kept : Files.Kept (fun _ => True) PageSpot start.files s.files

theorem hasUndated_of_recalls {path : Path} {s s' : Session} (h : Recalls path s s')
    (hdated : s.compiler.cache.hasUndated s.now = false) :
    s'.compiler.cache.hasUndated s'.now = false := by
  unfold Cache.hasUndated at hdated ⊢
  rw [List.any_eq_false] at hdated ⊢
  intro x hx
  rw [h.now]
  rcases h.entries x hx with hold | ⟨-, hstored, -⟩
  · exact hdated x hold
  · have hself := Time.since_self_isSome s.now
    unfold Cache.ageless
    rw [hstored]
    simpa using Option.isSome_iff_ne_none.mp hself

/-- **A file that has changed** is compiled, and the poll goes on. -/
theorem lookAt_of_fit {settings : Settings} {s : Session}
    (hsteady : Steady s.compiler.generator)
    (hdated : s.compiler.cache.hasUndated s.now = false) {path : Path}
    (hfit : Fit settings s.files path) {content : ByteArray} {mtime : Binary64}
    {executable : Bool} (hstat : s.files.stat path = .ok (.file content mtime executable))
    (htarget : (watchTarget s.files settings path).getD (path.withSuffix outputSuffix)
      = targetFor settings path) (seen : Seen) :
    ∃ seen' s', s.run (CommandLine.lookAt settings seen path) = (.ok seen', s')
      ∧ s'.compiler.generator = s.compiler.generator
      ∧ s'.compiler.cache.hasUndated s'.now = false
      ∧ Files.Kept (fun _ => True) (· = s.files.placeOf (targetFor settings path)) s.files
          s'.files := by
  rw [run_lookAt_of_file settings seen hstat]
  by_cases hseen : (seen.get? path == some mtime) = true
  · rw [if_pos hseen]
    exact ⟨seen, s, rfl, rfl, hdated, Files.Kept.refl _ _ _⟩
  · rw [if_neg hseen]
    rcases run_compileWatched s settings path with ⟨told, hrun⟩ | ⟨e, he, hunreported, -⟩
    · have hrecalls := run_compileFile_recalls s path (watchTarget s.files settings path)
      have hkept := compileFile_kept hsteady.leavesFiles path (watchTarget s.files settings path)
      rw [htarget] at hkept
      have hdated' := hasUndated_of_recalls hrecalls hdated
      exact ⟨_, _, run_bind_of_ok s hrun _, hrecalls.generator, hdated',
        hkept.mono (fun _ _ => trivial) fun _ h => h⟩
    · have := hfit.compileFile_failsReported hsteady hdated htarget e he
      exact absurd this (by simp [hunreported])

/-- **A single file** is looked at, and the poll goes on. -/
theorem lookAt_of_input {settings : Settings} {s : Session}
    (hsteady : Steady s.compiler.generator)
    (hdated : s.compiler.cache.hasUndated s.now = false) {input : Path}
    (hfit : Fit settings s.files input) (hinput : settings.input = some input)
    {found : Option FileEntry} (hlook : s.files.look input = .ok found)
    (hother : found ≠ some .directory) (seen : Seen) :
    ∃ seen' s', s.run (CommandLine.lookAt settings seen input) = (.ok seen', s')
      ∧ s'.compiler.generator = s.compiler.generator
      ∧ s'.compiler.cache.hasUndated s'.now = false := by
  cases hstat : s.files.stat input with
  | error e =>
    -- the path has no null in it, so the store refuses and the look goes on
    have hrefused := Files.stat_refuses (Files.hasNull_of_unresolved? hfit.resolved) hstat
    rcases run_lookAt_of_error settings seen hstat with hrun | ⟨-, hnot⟩
    · exact ⟨seen, s, hrun, rfl, hdated⟩
    · exact absurd hrefused (by simp [hnot])
  | ok entry =>
    rw [Files.look_of_stat hstat] at hlook
    obtain rfl := Except.ok.inj hlook
    cases entry with
    | directory => exact absurd rfl hother
    | file content mtime executable =>
      have hfile : s.files.isDirectory input = false := by
        simp [Files.isDirectory, hstat]
      have htarget : (watchTarget s.files settings input).getD (input.withSuffix outputSuffix)
          = targetFor settings input := by
        unfold watchTarget targetFor
        rw [hinput]
        simp [hfile]
      obtain ⟨seen', s', hrun, hgenerator, hdated', -⟩ :=
        lookAt_of_fit hsteady hdated hfit hstat htarget seen
      exact ⟨seen', s', hrun, hgenerator, hdated'⟩

namespace Serving

variable {settings : Settings} {start s : Session} {b : Batch}

theorem refl (hdated : start.compiler.cache.hasUndated start.now = false) : Serving start start :=
  ⟨rfl, hdated, Files.Kept.refl _ _ _⟩

/-- **One file of a directory** is looked at, and the poll goes on.  The file is still
what it was, since only pages have been written. -/
theorem lookAt (hserve : Servable settings start.files)
    (hbatch : batch? start.files settings = some b)
    (hsource : start.files.look b.source = .ok (some .directory))
    (hsteady : Steady start.compiler.generator) (h : Serving start s) {path : Path}
    (hwatched : Watched settings start.files path) (seen : Seen) :
    ∃ seen' s', s.run (CommandLine.lookAt settings seen path) = (.ok seen', s')
      ∧ Serving start s' := by
  have htree := hserve.tree b hbatch
  obtain ⟨paths, hpaths, hpath⟩ := hwatched
  have hlist := watchedFiles_of_batch hbatch hsource ▸ hpaths
  have hlisted := (Glob.mem_glob hlist path).mp hpath
  have hat := (Files.stat_eq_ok (Files.look_eq_ok_some hsource)).2
  have hmem := Glob.mem_filesBelow_of_glob htree hlist hat hpath
  have hfit := hserve.fit path (by rw [aims, hbatch]; exact hmem)
  obtain ⟨⟨content, mtime, executable, hstart⟩, ⟨names, hne, rfl⟩, hspots⟩ :=
    exists_within_of_listed htree hat hlisted
  have hstat := h.kept.stat (hspots _ (by simp)) hstart
  have htarget := watchTarget_getD h.kept ⟨paths, hpaths, hpath⟩ hstat
  obtain ⟨seen', s', hrun, hgenerator, hdated, hkept⟩ :=
    lookAt_of_fit (h.generator ▸ hsteady) h.dated (hfit.of_kept h.kept hspots) hstat htarget seen
  refine ⟨seen', s', hrun, hgenerator.trans h.generator, hdated, h.kept.trans (hkept.mono
    (fun _ h => h) ?_)⟩
  rintro loc rfl
  -- what is written is a page
  have hlinks : s.files.links = [] := by
    rw [h.kept.ground]
    exact htree.unlinked
  rw [targetFor_of_batch hbatch hne]
  exact pageSpot_target hlinks b.source b.output hne

/-- **The files of a directory**, one after the other. -/
theorem foldlM_lookAt (hserve : Servable settings start.files)
    (hbatch : batch? start.files settings = some b)
    (hsource : start.files.look b.source = .ok (some .directory))
    (hsteady : Steady start.compiler.generator) (paths : List Path)
    (hpaths : ∀ path ∈ paths, Watched settings start.files path) (h : Serving start s)
    (seen : Seen) :
    ∃ seen' s', s.run (paths.foldlM (CommandLine.lookAt settings) seen) = (.ok seen', s')
      ∧ Serving start s' := by
  induction paths generalizing s seen with
  | nil => exact ⟨seen, s, rfl, h⟩
  | cons path rest ih =>
    rw [List.foldlM_cons]
    obtain ⟨seen', s', hrun, hnext⟩ :=
      h.lookAt hserve hbatch hsource hsteady (hpaths path (by simp)) seen
    rw [run_bind_of_ok s hrun]
    exact ih (fun q hq => hpaths q (by simp [hq])) hnext seen'

end Serving

/-- **A poll** goes through, or it is told that the files cannot be listed. -/
theorem poll_serving {settings : Settings} {s : Session} (hserve : Servable settings s.files)
    (hsteady : Steady s.compiler.generator)
    (hdated : s.compiler.cache.hasUndated s.now = false) (seen : Seen) :
    (∃ seen' s', s.run (poll settings seen) = (.ok seen', s')
        ∧ s'.compiler.generator = s.compiler.generator
        ∧ s'.compiler.cache.hasUndated s'.now = false)
      ∨ ∃ e s', s.run (poll settings seen) = (.error e, s') ∧ e.isReported = true := by
  unfold poll
  rw [run_bind_of_ok s s.run_get]
  cases hpaths : watchedFiles s.files settings with
  | error e =>
    exact .inr ⟨.files e, s, rfl, hserve.watchedFiles_refuses hpaths⟩
  | ok paths =>
    left
    rcases watchedFiles_cases hpaths with
      ⟨b, hbatch, hsource⟩ | rfl | ⟨input, found, hinput, hsingle, hlook, hother, rfl⟩
    · obtain ⟨seen', s', hrun, hserving⟩ := Serving.foldlM_lookAt hserve hbatch hsource hsteady
        paths (fun path hpath => ⟨paths, hpaths, hpath⟩) (Serving.refl hdated) seen
      exact ⟨seen', s', hrun, hserving.generator, hserving.dated⟩
    · exact ⟨seen, s, rfl, rfl, hdated⟩
    · have hfit := hserve.fit input (by rw [aims, hsingle, hinput]; simp)
      obtain ⟨seen', s', hrun, hgenerator, hdated'⟩ :=
        lookAt_of_input hsteady hdated hfit hinput hlook hother seen
      exact ⟨seen', s', (run_bind_of_ok s hrun _), hgenerator, hdated'⟩

/-! ## §7. A whole watch. -/

/-- What holds of the files at every poll holds of them at the first. -/
theorem servable_first {settings : Settings} {rests : List Rest} {seen : Seen} {s : Session}
    (hserve : ∀ round ∈ rounds settings rests seen s, Servable settings round.before) :
    Servable settings s.files := by
  obtain ⟨first, tail, hrounds, hbefore⟩ := rounds_head settings rests seen s
  rw [← hbefore]
  refine hserve first ?_
  rw [hrounds]
  exact List.mem_cons_self

/-- **Every poll of a watch** goes through, or its failure is reported. -/
theorem rounds_reported {settings : Settings} (batches : List (List Files.Change)) {seen : Seen}
    {s : Session} (hsteady : Steady s.compiler.generator)
    (hdated : s.compiler.cache.hasUndated s.now = false)
    (hserve : ∀ round ∈ rounds settings (batches.map Rest.ofBatch) seen s,
      Servable settings round.before) :
    ∀ round ∈ rounds settings (batches.map Rest.ofBatch) seen s,
      ∀ e ∈ round.failure, e.isReported = true := by
  induction batches generalizing seen s with
  | nil =>
    rcases poll_serving (servable_first hserve) hsteady hdated seen with
      ⟨seen', s', hrun, -, -⟩ | ⟨e, s', hrun, hreported⟩
    · rw [rounds_of_ok hrun]
      simp
    · rw [rounds_of_error hrun]
      simpa using hreported
  | cons batch more ih =>
    rcases poll_serving (servable_first hserve) hsteady hdated seen with
      ⟨seen', s', hrun, hgenerator, hdated'⟩ | ⟨e, s', hrun, hreported⟩
    · -- the next poll begins with the same generator and the same clock
      have hnext : rounds settings ((batch :: more).map Rest.ofBatch) seen s
          = ⟨s.files, s'.files, none⟩
            :: rounds settings (more.map Rest.ofBatch) seen' ((Rest.ofBatch batch).apply s') :=
        rounds_of_ok hrun
      rw [hnext] at hserve ⊢
      have hsteady' : Steady ((Rest.ofBatch batch).apply s').compiler.generator :=
        hgenerator ▸ hsteady
      intro round hround
      rcases List.mem_cons.mp hround with rfl | hround
      · simp
      · exact ih hsteady' hdated' (fun r hr => hserve r (by simp [hr])) round hround
    · rw [rounds_of_error hrun]
      simpa using hreported

/-- **A watch** ends in order, or its failure is reported. -/
theorem watchOn_reported {settings : Settings} {batches : List (List Files.Change)} {seen : Seen}
    {s : Session} (hsteady : Steady s.compiler.generator)
    (hdated : s.compiler.cache.hasUndated s.now = false)
    (hserve : ∀ round ∈ rounds settings (batches.map Rest.ofBatch) seen s,
      Servable settings round.before) {e : Failure}
    (he : (watchOn settings batches seen s).result = .error e) : e.isReported = true := by
  obtain ⟨last, hlast, -, hresult⟩ := watchOn_rounds settings batches seen s
  have hmem := List.mem_of_mem_getLast? hlast
  have hreported := rounds_reported batches hsteady hdated hserve last hmem
  rw [hresult] at he
  cases hfailure : last.failure with
  | none => simp [hfailure] at he
  | some e' =>
    simp only [hfailure] at he
    injection he with he
    exact he ▸ hreported e' hfailure

end CommandLine

end Offside
