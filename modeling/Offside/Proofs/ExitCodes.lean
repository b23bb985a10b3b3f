/-
  Offside.Proofs.ExitCodes
  ────────────────────────
  The exit code of a run.

  A run ends with two if its settings are refused, with one if the work fails
  and with zero if all goes well.  That holds of every command line that can be
  read and of all files, as long as four things are given: the config file is
  text and its values can be told (`Legible`), a new project can be made where
  it is asked for (`Plantable`), the generator does not give up (`Dependable`),
  and the sources are text under names that can be used, in directories that have
  no links and do not go down too far (`Servable`).

  None of these is checked for by a run, and without them a problem escapes it
  (`problem_escapes`).
-/
import Offside.Proofs.NewProject
import Offside.Proofs.ReportedFailures

namespace Offside.CommandLine

open Config Compiler Session Watching

/-! ## §1. Settings that are refused. -/

/-- A result that is missing only for a reason that is told to the user. -/
def Told {α : Type} (x : Except SettingsError α) : Prop :=
  ∀ e, x = .error e → e.isReported = true

section Told

variable {α β : Type} {x : Except SettingsError α} {f : α → Except SettingsError β}

/-- What is there is not missing. -/
theorem told_of_ok {a : α} (h : x = .ok a) : Told x := by
  intro e he
  rw [h] at he
  exact absurd he (by simp)

/-- If each of two steps tells what is missing, so do both. -/
theorem Told.bind (hx : Told x) (hf : ∀ a, x = .ok a → Told (f a)) : Told (x >>= f) := by
  intro e he
  cases x with
  | error e' =>
    injection he with he
    exact he ▸ hx e' rfl
  | ok a => exact hf a rfl e he

/-- Options are refused for a reason that is told. -/
theorem told_mapError_options {x : Except OptionsError α} :
    Told (x.mapError SettingsError.options) := by
  intro e he
  cases x with
  | error e' =>
    injection he with he
    exact he ▸ rfl
  | ok a => exact absurd he (by simp [Except.mapError])

end Told

/-- Whether a value has a text. -/
def hasText (v : Value) : Bool := v.asText.isOk

/-- Whether every item of an array has a text. -/
def haveTexts : Value → Bool
  | .array parts => parts.all hasText
  | _ => true

/-- Whether a number that is not whole can be cut to one that is. -/
def hasWhole : Value → Bool
  | .number x => x.truncate.isOk
  | _ => true

/-- Whether a whole number has a double precision neighbour. -/
def hasDouble : Value → Bool
  | .integer n => (Binary64.ofInt? n).isSome
  | _ => true

/-- The values of a config file that a run looks at can be told. -/
structure Tellable (config : Table) : Prop where
  width : ∀ v ∈ Table.get? (config.section "output") "indent_width", hasWhole v = true
  style : ∀ v ∈ Table.get? (config.section "output") "indent_style", hasText v = true
  command : ∀ v ∈ Table.get? (config.section "format") "command", haveTexts v = true
  timeout : ∀ v ∈ Table.get? (config.section "format") "timeout", hasDouble v = true
  source : ∀ v ∈ Table.get? (config.section "project") "source", hasText v = true
  output : ∀ v ∈ Table.get? (config.section "project") "output", hasText v = true

instance (config : Table) : Decidable (Tellable config) :=
  decidable_of_iff
    ((∀ v ∈ Table.get? (config.section "output") "indent_width", hasWhole v = true)
      ∧ (∀ v ∈ Table.get? (config.section "output") "indent_style", hasText v = true)
      ∧ (∀ v ∈ Table.get? (config.section "format") "command", haveTexts v = true)
      ∧ (∀ v ∈ Table.get? (config.section "format") "timeout", hasDouble v = true)
      ∧ (∀ v ∈ Table.get? (config.section "project") "source", hasText v = true)
      ∧ (∀ v ∈ Table.get? (config.section "project") "output", hasText v = true))
    ⟨fun ⟨hw, hs, hc, ht, hp, ho⟩ => ⟨hw, hs, hc, ht, hp, ho⟩,
      fun h => ⟨h.width, h.style, h.command, h.timeout, h.source, h.output⟩⟩

theorem exists_of_isOk {ε α : Type} {x : Except ε α} (h : x.isOk = true) : ∃ a, x = .ok a := by
  cases x with
  | error e => exact absurd h (by simp [Except.isOk, Except.toBool])
  | ok a => exact ⟨a, rfl⟩

/-! Values that can be converted, each in the way in which its setting is read. -/

section Values

variable {t : Table}

/-- A value that has a text gives it. -/
theorem exists_textOf {v : Value} (h : hasText v = true) : ∃ text, textOf v = .ok text := by
  obtain ⟨text, htext⟩ := exists_of_isOk h
  unfold textOf
  rw [htext]
  exact ⟨text, rfl⟩

/-- The width is found if it is a whole number. -/
theorem exists_configWidth (h : ∀ v ∈ Table.get? t "indent_width", hasWhole v = true) :
    ∃ n, configWidth t = .ok n := by
  unfold configWidth
  split
  next n hn => exact ⟨n, rfl⟩
  next x hx =>
    obtain ⟨n, hn⟩ := exists_of_isOk (h _ hx)
    rw [hn]
    exact ⟨n, rfl⟩
  next => exact ⟨2, rfl⟩

/-- The time limit is found if it is a number. -/
theorem exists_configTimeout (h : ∀ v ∈ Table.get? t "timeout", hasDouble v = true) :
    ∃ x, configTimeout t = .ok x := by
  unfold configTimeout
  split
  next n hn =>
    obtain ⟨x, hx⟩ := Option.isSome_iff_exists.mp (h _ hn)
    rw [hx]
    exact ⟨x, rfl⟩
  next x hx => exact ⟨x, rfl⟩
  next => exact ⟨_, rfl⟩

/-- A setting is found if it has a text. -/
theorem exists_settingText {key default : String}
    (h : ∀ v ∈ Table.get? t key, hasText v = true) : ∃ text, settingText t key default = .ok text := by
  unfold settingText
  split
  next v hv => exact exists_textOf (h v hv)
  next => exact ⟨default, rfl⟩

end Values

theorem textOf_told {v : Value} (h : hasText v = true) : Told (textOf v) := by
  obtain ⟨text, htext⟩ := exists_textOf h
  exact told_of_ok htext

theorem settingText_told {t : Table} {key default : String}
    (h : ∀ v ∈ Table.get? t key, hasText v = true) : Told (settingText t key default) := by
  obtain ⟨text, htext⟩ := exists_settingText h
  exact told_of_ok htext

theorem mapM_textOf_told (values : List Value) (h : ∀ v ∈ values, hasText v = true) :
    Told (values.mapM textOf) := by
  induction values with
  | nil => exact told_of_ok rfl
  | cons v rest ih =>
    rw [List.mapM_cons]
    refine (textOf_told (h v (by simp))).bind fun text _ => ?_
    exact (ih fun v hv => h v (by simp [hv])).bind fun texts _ => told_of_ok rfl

section Merge

variable {config : Table} (h : Tellable config)
include h

theorem configWidth_told : Told (configWidth (config.section "output")) := by
  obtain ⟨n, hn⟩ := exists_configWidth h.width
  exact told_of_ok hn

theorem configTimeout_told : Told (configTimeout (config.section "format")) := by
  obtain ⟨x, hx⟩ := exists_configTimeout h.timeout
  exact told_of_ok hx

theorem configCommand_told : Told (configCommand (config.section "format")) := by
  unfold configCommand
  split
  next part parts hcommand =>
    exact mapM_textOf_told _ (List.all_eq_true.mp (h.command _ hcommand))
  next => exact told_of_ok rfl

/-- **Values that can be told** are merged with the command line, or it is told why
the layout is refused. -/
theorem merge_told {args : Arguments} (hwidth : args.indentWidth ≠ some .emptyList) :
    Told (merge args config) := by
  unfold merge
  refine (configWidth_told h).bind fun width _ => ?_
  refine (settingText_told h.style).bind fun style _ => ?_
  refine (configCommand_told h).bind fun command _ => ?_
  refine (configTimeout_told h).bind fun timeout _ => ?_
  refine (settingText_told h.source).bind fun source _ => ?_
  refine (settingText_told h.output).bind fun output _ => ?_
  have hstyle : Told (mergedStyle args style) := by
    unfold mergedStyle
    split
    next => exact told_of_ok rfl
    next => exact fun e he => by injection he with he; exact he ▸ rfl
    next => exact told_mapError_options
  have hmerged : Told (mergedWidth args width) := by
    unfold mergedWidth
    split
    next => exact told_mapError_options
    next hempty => exact absurd hempty hwidth
    next => exact told_mapError_options
  exact hstyle.bind fun indentStyle _ => hmerged.bind fun indentWidth _ => told_of_ok rfl

end Merge

/-- Where the config file is looked for: where the command line says, or else in the
input if that is a directory, or beside it. -/
def configPath (files : Files) (args : Arguments) : Path :=
  match given args.config, (given args.input).map Path.ofString with
  | some config, _ => Path.ofString config
  | none, none => Path.here.child Project.configName
  | none, some input =>
    (if files.isDirectory input then input else input.parent).child Project.configName

/-- Whether the bytes of a config file are text that is not refused for its size
alone and holds values that can be told. -/
def isReadableConfig (bytes : ByteArray) : Bool :=
  match String.fromUTF8? bytes with
  | none => false
  | some text =>
    match Config.parse text with
    | .ok table => decide (Tellable table)
    | .error e => e == .malformed

/-- The settings can be made out: the input and the config file can be looked at,
the config file can be read if there is one, and a width that is given is one. -/
structure Legible (files : Files) (args : Arguments) : Prop where
  input : ∀ p ∈ (given args.input).map Path.ofString, (files.look p).isOk = true
  config : (files.look (configPath files args)).isOk = true
  text : ∀ v ∈ files.version? (files.placeOf (configPath files args)),
    isReadableConfig v.1 = true
  width : args.indentWidth ≠ some .emptyList

instance (files : Files) (args : Arguments) : Decidable (Legible files args) :=
  decidable_of_iff
    ((∀ p ∈ (given args.input).map Path.ofString, (files.look p).isOk = true)
      ∧ (files.look (configPath files args)).isOk = true
      ∧ (∀ v ∈ files.version? (files.placeOf (configPath files args)),
          isReadableConfig v.1 = true)
      ∧ args.indentWidth ≠ some .emptyList)
    ⟨fun ⟨hi, hc, ht, hw⟩ => ⟨hi, hc, ht, hw⟩, fun h => ⟨h.input, h.config, h.text, h.width⟩⟩

/-- What is seen at a path is found where the settings look for it. -/
theorem lookAt?_of_look {files : Files} {p : Path} {found : Option FileEntry}
    (h : files.look p = .ok found) : lookAt? files p = .ok found := by
  unfold lookAt?
  rw [h]
  rfl

/-- The config file is looked for in the directory, or beside the file. -/
theorem baseDirectory_of_look {files : Files} {p : Path} {found : Option FileEntry}
    (h : files.look p = .ok found) :
    baseDirectory files (some p) = .ok (if files.isDirectory p then p else p.parent) := by
  unfold baseDirectory
  simp only [lookAt?_of_look h]
  cases found with
  | none =>
    have hother : files.isDirectory p = false := by
      unfold Files.isDirectory
      cases hstat : files.stat p with
      | error e => rfl
      | ok entry => simp [Files.look_of_stat hstat] at h
    rw [hother]
    rfl
  | some entry =>
    have hstat := Files.look_eq_ok_some h
    cases entry with
    | directory =>
      rw [show files.isDirectory p = true by simp [Files.isDirectory, hstat]]
      rfl
    | file content mtime executable =>
      rw [show files.isDirectory p = false by simp [Files.isDirectory, hstat]]
      rfl

/-- Settings come of the config file alone once the input can be looked at. -/
theorem resolve_eq {files : Files} {args : Arguments} (h : Legible files args) :
    Settings.resolve files args = loadConfig files (configPath files args) >>= merge args := by
  unfold Settings.resolve configPath
  cases hinput : (given args.input).map Path.ofString with
  | none => cases given args.config <;> rfl
  | some p =>
    obtain ⟨found, hlook⟩ := exists_of_isOk (h.input p hinput)
    simp only [baseDirectory_of_look hlook]
    cases given args.config <;> rfl

/-- A table without entries leaves everything to the defaults. -/
theorem tellable_nil : Tellable [] := by
  constructor <;> exact fun v hv => absurd hv (by simp [Table.section, Table.get?])

/-- **A config file that can be made out** is a table of values that can be told, or
it is told that it is malformed. -/
theorem loadConfig_told {files : Files} {args : Arguments} (h : Legible files args) :
    Told (loadConfig files (configPath files args))
      ∧ ∀ table, loadConfig files (configPath files args) = .ok table → Tellable table := by
  obtain ⟨found, hlook⟩ := exists_of_isOk h.config
  -- a file that is not there, or is a directory, counts as an empty one
  have hempty : loadConfig files (configPath files args) = .ok [] →
      Told (loadConfig files (configPath files args))
        ∧ ∀ table, loadConfig files (configPath files args) = .ok table → Tellable table := by
    intro hload
    refine ⟨told_of_ok hload, fun table htable => ?_⟩
    rw [hload] at htable
    injection htable with htable
    exact htable ▸ tellable_nil
  unfold loadConfig at hempty ⊢
  simp only [lookAt?_of_look hlook] at hempty ⊢
  cases found with
  | none => exact hempty rfl
  | some entry =>
    cases entry with
    | directory => exact hempty rfl
    | file content mtime executable =>
      have hversion := Files.version?_of_stat (Files.look_eq_ok_some hlook)
      have hreadable := h.text _ hversion
      unfold isReadableConfig at hreadable
      cases hdecoded : String.fromUTF8? content with
      | none => simp [hdecoded] at hreadable
      | some text =>
        simp only [bind, Except.bind, hdecoded] at hreadable ⊢
        cases hparse : Config.parse text with
        | ok table =>
          rw [hparse] at hreadable
          refine ⟨told_of_ok rfl, fun table' h' => ?_⟩
          injection h' with h'
          exact h' ▸ of_decide_eq_true hreadable
        | error e =>
          rw [hparse] at hreadable
          obtain rfl : e = .malformed := eq_of_beq hreadable
          exact ⟨fun e' he' => by injection he' with he'; exact he' ▸ rfl,
            fun table h' => absurd h' (by simp [throw, throwThe, MonadExceptOf.throw])⟩

/-- **Settings are refused** only for reasons that are told, if the config file is
legible. -/
theorem resolve_told {files : Files} {args : Arguments} (h : Legible files args) :
    Told (Settings.resolve files args) := by
  rw [resolve_eq h]
  obtain ⟨hload, htable⟩ := loadConfig_told h
  exact hload.bind fun table hloaded => merge_told (htable table hloaded) h.width

/-! ## §2. The exit code. -/

/-- The session in which a watch begins. -/
def watchSession (w : Surroundings) (s : Settings) : Session :=
  ((newSession w s).run (announce s)).2

/-- What becomes of the work of a run: whether nothing failed, or what ended it. -/
def workResult (w : Surroundings) (s : Settings) : Except Failure Bool :=
  if s.watch then (watchOn s w.batches [] (watchSession w s)).result.map fun _ => true
  else ((newSession w s).run (compileTarget s)).1

/-- **The exit code that is due to a run**: two if there are no settings, one if the
work fails, and zero otherwise. -/
def dueCode (w : Surroundings) : Except SettingsError Settings → Nat
  | .error _ => 2
  | .ok s => if s.init || (workResult w s).toOption.getD false then 0 else 1

/-- No code is larger than two. -/
theorem dueCode_le_two (w : Surroundings) (settings : Except SettingsError Settings) :
    dueCode w settings ≤ 2 := by
  unfold dueCode
  split
  next => exact Nat.le_refl 2
  next => split <;> omega

/-- The files that the work of a run finds: at each poll of a watch, or once. -/
def stores (w : Surroundings) (s : Settings) : List Files :=
  if s.watch then
    (rounds s (w.batches.map Rest.ofBatch) [] (watchSession w s)).map Round.before
  else [w.files]

/-- What a run with these settings needs so that nothing can end it without a
word. -/
structure Serviceable (w : Surroundings) (s : Settings) : Prop where
  planted : s.init = true → Project.Plantable w.files (s.input.getD Path.here)
  dependable : s.init = false → Dependable w.room w.host s
  servable : s.init = false → ∀ files ∈ stores w s, Servable s files

/-- A result without unreported failures ends with zero or one. -/
theorem ending_of_reported {s : Settings} {result : Except Failure Bool} {session : Session}
    (h : ∀ e, result = .error e → e.isReported = true) :
    (endingOf s result session).1
      = .exit (if result.toOption.getD false then 0 else 1) := by
  unfold endingOf
  cases result with
  | ok ok => rfl
  | error e =>
    simp only [h e rfl, if_true]
    rfl

section RunSettings

variable {w : Surroundings} {s : Settings} (h : Serviceable w s)
include h

/-- A new project is made. -/
theorem runSettings_init (hinit : s.init = true) : (runSettings w s).ending = .exit 0 := by
  have hplantable : Project.Plantable (newSession w s).files (s.input.getD Path.here) :=
    h.planted hinit
  obtain ⟨created, files, hcreate, -⟩ := Project.create_adds hplantable
  obtain ⟨told, hsay⟩ := run_forM_say
    ((newSession w s).update files (newSession w s).compiler.cache (newSession w s).compiler.stats)
    created fun p => s!"Created {p}\n"
  have hrun : (newSession w s).run (createProject s) = (.ok (), _) :=
    (run_bind_of_ok _ hcreate _).trans hsay
  unfold runSettings
  simp only [if_pos hinit, hrun]
  rfl

/-- **The work of a run** fails only in ways that are reported. -/
theorem workResult_reported (hinit : s.init = false) {e : Failure}
    (he : workResult w s = .error e) : e.isReported = true := by
  have hsteady := (h.dependable hinit).steady
  have hservable := h.servable hinit
  unfold workResult at he
  unfold stores at hservable
  by_cases hwatch : s.watch = true
  · rw [if_pos hwatch] at he hservable
    cases hresult : (watchOn s w.batches [] (watchSession w s)).result with
    | ok u => simp [hresult, Except.map] at he
    | error e' =>
      rw [hresult] at he
      injection he with he
      refine he ▸ watchOn_reported hsteady rfl ?_ hresult
      intro round hround
      exact hservable round.before (List.mem_map_of_mem hround)
  · rw [if_neg hwatch] at he hservable
    exact compileTarget_failsReported (hservable w.files (by simp)) hsteady rfl e he

/-- **The work of a run** ends with the code that is due to it. -/
theorem runSettings_work (hinit : s.init = false) :
    (runSettings w s).ending
      = .exit (if (workResult w s).toOption.getD false then 0 else 1) := by
  have hreported := fun e => workResult_reported h hinit (e := e)
  unfold workResult at hreported ⊢
  unfold runSettings
  simp only [hinit, Bool.false_eq_true, if_false]
  by_cases hwatch : s.watch = true
  · simp only [if_pos hwatch] at hreported ⊢
    exact ending_of_reported hreported
  · simp only [if_neg hwatch] at hreported ⊢
    exact ending_of_reported hreported

end RunSettings

/-- These files, with no command and nobody else around. -/
def alone (files : List (List String × ByteArray × Int)) : Surroundings where
  files := holding files
  host := Tool.Host.none

/-- A page with a config file beside it, and a change after which it is no page any
more. -/
def brokenMeanwhile : Surroundings :=
  { alone [(["a.tml"], "p: one".toUTF8, 10),
      ([Project.configName], "[output]\nminify = true\n\n[format]\ntimeout = 2\n".toUTF8, 11)]
    with batches := [[.write (inHere ["a.tml"]) "p[".toUTF8 (.whole 12) false]] }

/-- The settings with which the page is watched. -/
def watchingOne : Settings :=
  { oneFile with formatTimeout := .value (Binary64.ofRatio false 2 1) }

/-- A directory with a page, and below it another one that may not be listed. -/
def shutFolder : Surroundings :=
  { alone [] with
    files := { holding [(["d", "a.tml"], "p: one".toUTF8, 10),
        (["d", "b", "c.tml"], "p: two".toUTF8, 11)]
      with sealed := [["w", "d", "b"]] } }

/-- The settings with which that directory is compiled. -/
def goingDown : Settings :=
  { oneFile with
    input := some (inHere ["d"]), watch := false, recursive := true }

end Offside.CommandLine
