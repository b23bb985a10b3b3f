/-
  Offside.Proofs.ConfigOverride
  ─────────────────────────────
  **THE COMMAND LINE OVER THE CONFIG FILE.**

  Two config files that differ only where the command line has its own word
  (`overridden`) give the same settings, or the same error.  Both are merged side by
  side: at each step the two results agree (`Agree`), the values of an overridden
  setting only in that there is one.  The stores around the files are walked side by
  side as well, since one file in the place of another changes no way (`Swapped`).

  That there is a value is not a matter of course.  The config file is converted
  before the command line is looked at, and a value that cannot be converted ends the
  run also where it is overridden (`overridden_width_ends_run`); hence `Convertible`.
-/
import Offside.Proofs.ExitCodes

namespace Offside.CommandLine

open Config

/-! ## §1. Two results side by side. -/

/-- Two results are the same error, or values that are related. -/
def Agree {α : Type} (R : α → α → Prop) (x y : Except SettingsError α) : Prop :=
  (∃ e, x = .error e ∧ y = .error e) ∨ ∃ a b, x = .ok a ∧ y = .ok b ∧ R a b

section Agree

variable {α β : Type} {R : α → α → Prop} {S : β → β → Prop} {x y : Except SettingsError α}

theorem Agree.refl (hR : ∀ a, R a a) (x : Except SettingsError α) : Agree R x x := by
  cases x with
  | error e => exact .inl ⟨e, rfl, rfl⟩
  | ok a => exact .inr ⟨a, a, rfl, rfl, hR a⟩

theorem Agree.eq (h : Agree (fun a b => a = b) x y) : x = y := by
  rcases h with ⟨e, hx, hy⟩ | ⟨a, b, hx, hy, hab⟩
  · rw [hx, hy]
  · rw [hx, hy, hab]

/-- Steps that agree, one after the other, agree. -/
theorem Agree.bind {f g : α → Except SettingsError β} (h : Agree R x y)
    (hf : ∀ a b, R a b → Agree S (f a) (g b)) : Agree S (x >>= f) (y >>= g) := by
  rcases h with ⟨e, rfl, rfl⟩ | ⟨a, b, rfl, rfl, hab⟩
  · exact .inl ⟨e, rfl, rfl⟩
  · exact hf a b hab

/-- What is overridden has a value, and what is not is the same. -/
theorem Agree.of_flag {flag : Bool} (hsame : flag = false → x = y)
    (hvalue : flag = true → (∃ a, x = .ok a) ∧ ∃ b, y = .ok b) :
    Agree (fun a b => flag = false → a = b) x y := by
  cases flag with
  | false =>
    rw [hsame rfl]
    exact Agree.refl (fun _ _ => rfl) y
  | true =>
    obtain ⟨⟨a, ha⟩, b, hb⟩ := hvalue rfl
    exact .inr ⟨a, b, ha, hb, fun h => absurd h (by simp)⟩

end Agree

/-! ## §2. Two tables side by side. -/

/-- Whether the command line has its own word on a setting. -/
def overridden (args : Arguments) (part key : String) : Bool :=
  (part == "output" && key == "indent_width" && args.indentWidth.isSome)
    || (part == "output" && key == "indent_style" && args.indentStyle.isSome)
    || (part == "output" && key == "minify" && args.minify)
    || (part == "format" && key == "enabled" && args.noFormat)
    || (part == "format" && key == "timeout" && args.formatTimeout.isSome)

/-- Two config files differ only in settings that the command line overrides. -/
def SameBeside (args : Arguments) (config config' : Table) : Prop :=
  ∀ part key, overridden args part key = false →
    Table.get? (config.section part) key = Table.get? (config'.section part) key

/-- The values that the command line overrides can be converted all the same. -/
structure Convertible (args : Arguments) (config : Table) : Prop where
  width : args.indentWidth.isSome = true →
    ∀ v ∈ Table.get? (config.section "output") "indent_width", hasWhole v = true
  style : args.indentStyle.isSome = true →
    ∀ v ∈ Table.get? (config.section "output") "indent_style", hasText v = true
  timeout : args.formatTimeout.isSome = true →
    ∀ v ∈ Table.get? (config.section "format") "timeout", hasDouble v = true

section Merge

variable {args : Arguments} {config config' : Table} (hsame : SameBeside args config config')

/-- A width that is given on the command line hides that of the config file. -/
theorem mergedWidth_eq {width width' : Int} (h : args.indentWidth.isSome = false → width = width') :
    mergedWidth args width = mergedWidth args width' := by
  unfold mergedWidth
  cases hword : args.indentWidth with
  | none => rw [h (by simp [hword])]
  | some given => cases given <;> rfl

/-- So does a style. -/
theorem mergedStyle_eq {name name' : String} (h : args.indentStyle.isSome = false → name = name') :
    mergedStyle args name = mergedStyle args name' := by
  unfold mergedStyle
  cases hword : args.indentStyle with
  | none => rw [h (by simp [hword])]
  | some given => cases given <;> rfl

include hsame

/-- Minifying on the command line hides what the config file says of it. -/
theorem minify_eq :
    (settingFlag (config.section "output") "minify" false || args.minify)
      = (settingFlag (config'.section "output") "minify" false || args.minify) := by
  cases hword : args.minify with
  | true => simp
  | false =>
    unfold settingFlag
    rw [hsame "output" "minify" (by simp [overridden, hword])]

/-- So does leaving the formatter out. -/
theorem useFormatter_eq :
    (settingFlag (config.section "format") "enabled" true && !args.noFormat)
      = (settingFlag (config'.section "format") "enabled" true && !args.noFormat) := by
  cases hword : args.noFormat with
  | true => simp
  | false =>
    unfold settingFlag
    rw [hsame "format" "enabled" (by simp [overridden, hword])]

theorem configCommand_eq :
    configCommand (config.section "format") = configCommand (config'.section "format") := by
  unfold configCommand
  rw [hsame "format" "command" (by simp [overridden])]

theorem projectText_eq (key default : String) :
    settingText (config.section "project") key default
      = settingText (config'.section "project") key default := by
  unfold settingText
  rw [hsame "project" key (by simp [overridden])]

variable (hconvert : Convertible args config) (hconvert' : Convertible args config')
include hconvert hconvert'

/-- Both files give a width, or none for the same reason. -/
theorem agree_width :
    Agree (fun width width' => args.indentWidth.isSome = false → width = width')
      (configWidth (config.section "output")) (configWidth (config'.section "output")) := by
  refine Agree.of_flag (fun hword => ?_) fun hword =>
    ⟨exists_configWidth (hconvert.width hword), exists_configWidth (hconvert'.width hword)⟩
  unfold configWidth
  rw [hsame "output" "indent_width" (by simp [overridden, hword])]

/-- Both files give a style, or none for the same reason. -/
theorem agree_style :
    Agree (fun name name' => args.indentStyle.isSome = false → name = name')
      (settingText (config.section "output") "indent_style" "spaces")
      (settingText (config'.section "output") "indent_style" "spaces") := by
  refine Agree.of_flag (fun hword => ?_) fun hword =>
    ⟨exists_settingText (hconvert.style hword), exists_settingText (hconvert'.style hword)⟩
  unfold settingText
  rw [hsame "output" "indent_style" (by simp [overridden, hword])]

/-- Both files give a time limit, or none for the same reason. -/
theorem agree_timeout :
    Agree (fun limit limit' => args.formatTimeout.isSome = false → limit = limit')
      (configTimeout (config.section "format")) (configTimeout (config'.section "format")) := by
  refine Agree.of_flag (fun hword => ?_) fun hword =>
    ⟨exists_configTimeout (hconvert.timeout hword), exists_configTimeout (hconvert'.timeout hword)⟩
  unfold configTimeout
  rw [hsame "format" "timeout" (by simp [overridden, hword])]

/-- **Two tables** that differ only in what is overridden are merged to the same
settings. -/
theorem merge_eq : merge args config = merge args config' := by
  apply Agree.eq
  unfold merge
  refine (agree_width hsame hconvert hconvert').bind fun width width' hwidth => ?_
  refine (agree_style hsame hconvert hconvert').bind fun style style' hstyle => ?_
  rw [configCommand_eq hsame]
  refine (Agree.refl (fun _ => rfl) _).bind fun command command' hcommand => ?_
  refine (agree_timeout hsame hconvert hconvert').bind fun limit limit' hlimit => ?_
  -- nothing from here on is overridden, and so nothing can fail in one of them only
  rw [projectText_eq hsame, projectText_eq hsame, mergedStyle_eq hstyle, mergedWidth_eq hwidth,
    minify_eq hsame, useFormatter_eq hsame, hcommand]
  have htimeout :
      args.formatTimeout.getD (.value limit) = args.formatTimeout.getD (.value limit') := by
    cases hword : args.formatTimeout with
    | none => rw [hlimit (by simp [hword])]
    | some given => rfl
  rw [htimeout]
  exact Agree.refl (fun _ => rfl) _

end Merge

/-! ## §3. Two stores side by side. -/

/-- There is a file at a location that is a config file with this table. -/
def HoldsConfig (files : Files) (place : Location) (config : Table) : Prop :=
  ∃ content mtime executable text,
    files.at? place = some (.file content mtime executable)
      ∧ String.fromUTF8? content = some text ∧ Config.parse text = .ok config

/-- Two stores that differ in one file only, which holds one config file or the
other. -/
structure Swapped (place : Location) (files files' : Files) (config config' : Table) : Prop where
  ground : files'.toGround = files.toGround
  beside : ∀ loc, loc ≠ place → files'.at? loc = files.at? loc
  first : HoldsConfig files place config
  second : HoldsConfig files' place config'

namespace Swapped

variable {place : Location} {files files' : Files} {config config' : Table}
  (h : Swapped place files files' config config')
include h

/-- No way goes through the file, whichever it is. -/
theorem walk (loc : Location) (names : List String) :
    files'.walk loc names = files.walk loc names := by
  induction names generalizing loc with
  | nil => rfl
  | cons name rest ih =>
    rw [Files.walk_cons, Files.walk_cons]
    by_cases hplace : loc = place
    -- at the file both ways end, since it is a directory in neither store
    · obtain ⟨_, _, _, _, hfile, -, -⟩ := h.first
      obtain ⟨_, _, _, _, hfile', -, -⟩ := h.second
      rw [hplace, hfile, hfile']
    · rw [h.beside loc hplace]
      simp only [ih]

/-- What is in a file does not matter to where paths lead. -/
theorem locate (p : Path) : files'.locate p = files.locate p := by
  unfold Files.locate Files.reach
  rw [Files.route_eq_of_ground h.ground, Files.origin_eq_of_ground h.ground, h.walk]

/-- A path leads to the same in both stores, or to the one file and the other. -/
theorem look_cases (p : Path) :
    files'.look p = files.look p
      ∨ ∃ content mtime executable content' mtime' executable',
          files.at? place = some (.file content mtime executable)
            ∧ files'.at? place = some (.file content' mtime' executable')
            ∧ files.look p = .ok (some (.file content mtime executable))
            ∧ files'.look p = .ok (some (.file content' mtime' executable')) := by
  have hlocate := h.locate p
  cases hplaced : files.locate p with
  | error e =>
    rw [hplaced] at hlocate
    refine .inl ?_
    unfold Files.look Files.stat
    rw [hplaced, hlocate]
  | ok loc =>
    rw [hplaced] at hlocate
    -- the two stores differ in what stands at one place and nowhere else
    by_cases hplace : loc = place
    · subst hplace
      obtain ⟨content, mtime, executable, -, hfile, -, -⟩ := h.first
      obtain ⟨content', mtime', executable', -, hfile', -, -⟩ := h.second
      refine .inr ⟨_, _, _, _, _, _, hfile, hfile', Files.look_of_stat ?_, Files.look_of_stat ?_⟩
      · unfold Files.stat
        rw [hplaced]
        simp only [hfile]
      · unfold Files.stat
        rw [hlocate]
        simp only [hfile']
    · refine .inl ?_
      unfold Files.look Files.stat
      rw [hplaced, hlocate]
      simp only [h.beside loc hplace]

/-- The config file is looked for in the same directory. -/
theorem baseDirectory (input : Option Path) :
    baseDirectory files' input = baseDirectory files input := by
  cases input with
  | none => rfl
  | some p =>
    rcases h.look_cases p with hsame | ⟨_, _, _, _, _, _, -, -, hlook, hlook'⟩
    · unfold CommandLine.baseDirectory lookAt?
      simp only [hsame]
    · unfold CommandLine.baseDirectory
      simp only [lookAt?_of_look hlook, lookAt?_of_look hlook']
      rfl

/-- The same is read from a path in both stores, or the one table and the other. -/
theorem loadConfig (p : Path) :
    Agree (fun table table' => table = table' ∨ table = config ∧ table' = config')
      (loadConfig files p) (loadConfig files' p) := by
  rcases h.look_cases p with
    hsame | ⟨content, _, _, content', _, _, hfile, hfile', hlook, hlook'⟩
  · have heq : CommandLine.loadConfig files' p = CommandLine.loadConfig files p := by
      unfold CommandLine.loadConfig lookAt?
      rw [hsame]
    rw [heq]
    exact Agree.refl (fun _ => .inl rfl) _
  -- the file that is read is the one that holds the config file
  · obtain ⟨_, _, _, text, hheld, htext, hparse⟩ := h.first
    obtain ⟨_, _, _, text', hheld', htext', hparse'⟩ := h.second
    rw [hfile] at hheld
    rw [hfile'] at hheld'
    injection hheld with hheld
    injection hheld with hcontent
    injection hheld' with hheld'
    injection hheld' with hcontent'
    rw [← hcontent] at htext
    rw [← hcontent'] at htext'
    refine .inr ⟨config, config', ?_, ?_, .inr ⟨rfl, rfl⟩⟩
    · unfold CommandLine.loadConfig
      simp only [lookAt?_of_look hlook, bind, Except.bind, htext, hparse]
      rfl
    · unfold CommandLine.loadConfig
      simp only [lookAt?_of_look hlook', bind, Except.bind, htext', hparse']
      rfl

end Swapped

/-! ## §4. The command line has the last word. -/

/-- **Flags override the config file.**  Two config files that differ only in settings
that the command line overrides, and in values of these that can be converted, give the
same settings, or the same error. -/
theorem flags_override_config {args : Arguments} {place : Location} {files files' : Files}
    {config config' : Table} (hswapped : Swapped place files files' config config')
    (hsame : SameBeside args config config')
    (hconvert : Convertible args config) (hconvert' : Convertible args config') :
    Settings.resolve files args = Settings.resolve files' args := by
  apply Agree.eq
  unfold Settings.resolve
  simp only [hswapped.baseDirectory]
  refine (Agree.refl (fun _ => rfl) _).bind fun base base' hbase => ?_
  rw [hbase]
  refine (hswapped.loadConfig _).bind fun table table' htable => ?_
  have hmerge : merge args table = merge args table' := by
    rcases htable with rfl | ⟨rfl, rfl⟩
    · rfl
    · exact merge_eq hsame hconvert hconvert'
  rw [hmerge]
  exact Agree.refl (fun _ => rfl) _

/-- A working directory with nothing in it but this config file. -/
def configured (text : String) : Files where
  home := ["w"]
  entries := [(["w"], .directory),
    (["w", Project.configName], .file text.toUTF8 (Binary64.ofRatio false 10 1) false)]

theorem holdsConfig_configured {text : String} {config : Table} (h : Config.parse text = .ok config) :
    HoldsConfig (configured text) ["w", Project.configName] config := by
  have hvalid : text.toUTF8.IsValidUTF8 := text.isValidUTF8
  refine ⟨text.toUTF8, _, _, text, rfl, ?_, h⟩
  unfold String.fromUTF8?
  rw [dif_pos hvalid]
  rfl

theorem swapped_configured {text text' : String} {config config' : Table}
    (h : Config.parse text = .ok config) (h' : Config.parse text' = .ok config') :
    Swapped ["w", Project.configName] (configured text) (configured text') config config' := by
  refine ⟨rfl, fun loc hloc => ?_, holdsConfig_configured h, holdsConfig_configured h'⟩
  have hother : (["w", Project.configName] == loc) = false := by simpa using hloc.symm
  simp only [Files.at?, configured, List.find?_cons, Location.same_eq_beq, hother]

/-- A config file that asks for tabs. -/
def tabbed : String := "project.source = 'p'\noutput.indent_style = 'tabs'"

def tabbedTable : Table :=
  [("project", .table [("source", .text "p")]), ("output", .table [("indent_style", .text "tabs")])]

/-- A config file that asks for a layout that is refused, with the same project. -/
def dotted : String :=
  "[output]\nindent_style = 'dots'\nindent_width = -9\nminify = 1\n[project]\nsource = 'p'"

def dottedTable : Table :=
  [("output", .table [("indent_style", .text "dots"), ("indent_width", .integer (-9)),
      ("minify", .integer 1)]),
    ("project", .table [("source", .text "p")])]

/-- The words of a command line that asks for a layout of its own. -/
def layoutFlags : Arguments :=
  { indentWidth := some (.value 4), indentStyle := some (.value .spaces), minify := true }

theorem sameBeside_layoutFlags : SameBeside layoutFlags tabbedTable dottedTable := by
  intro part key hword
  by_cases houtput : part = "output"
  · subst houtput
    have hwidth : "indent_width" ≠ key := by
      intro hkey
      simp [← hkey, overridden, layoutFlags] at hword
    have hstyle : "indent_style" ≠ key := by
      intro hkey
      simp [← hkey, overridden, layoutFlags] at hword
    have hminify : "minify" ≠ key := by
      intro hkey
      simp [← hkey, overridden, layoutFlags] at hword
    simp [Table.section, Table.get?, tabbedTable, dottedTable, hwidth, hstyle, hminify]
  · have hother : ("output" == part) = false := by simpa using Ne.symm houtput
    simp only [Table.section, Table.get?, tabbedTable, dottedTable, List.find?_cons, hother]

/-- The flags make good a layout that is refused without them. -/
theorem flags_override_config_layout :
    Arguments.parse ["--indent-width", "4", "--indent-style", "spaces", "--minify"]
        = .ok layoutFlags
      ∧ Settings.resolve (configured tabbed) layoutFlags
          = Settings.resolve (configured dotted) layoutFlags
      ∧ (Settings.resolve (configured dotted) layoutFlags).isOk = true
      ∧ (Settings.resolve (configured dotted) {}).isOk = false := by
  have htabbed : Config.parse tabbed = .ok tabbedTable := by
    unfold tabbed tabbedTable
    cbv
  have hdotted : Config.parse dotted = .ok dottedTable := by
    unfold dotted dottedTable
    cbv
  have hsame := flags_override_config (swapped_configured htabbed hdotted) sameBeside_layoutFlags
    ⟨fun _ => by decide +kernel, fun _ => by decide +kernel, fun _ => by decide +kernel⟩
    ⟨fun _ => by decide +kernel, fun _ => by decide +kernel, fun _ => by decide +kernel⟩
  exact ⟨by decide +kernel, hsame, by decide +kernel, by decide +kernel⟩

/-- A config file that asks for no more than a width. -/
def widthTable (v : Value) : Table := [("output", .table [("indent_width", v)])]

theorem sameBeside_widthTable {args : Arguments} (h : args.indentWidth.isSome = true) (v v' : Value) :
    SameBeside args (widthTable v) (widthTable v') := by
  intro part key hword
  by_cases houtput : "output" = part
  · subst houtput
    have hwidth : "indent_width" ≠ key := by
      intro hkey
      simp [← hkey, overridden, h] at hword
    simp [Table.section, Table.get?, widthTable, hwidth]
  · simp [Table.section, Table.get?, widthTable, houtput]

/-- **A width that is not finite ends the run though it is overridden**; with a finite
one in its place there are settings. -/
theorem overridden_width_ends_run :
    Swapped ["w", Project.configName]
        (configured "[output]\nindent_width = inf\n") (configured "[output]\nindent_width = 3\n")
        (widthTable (.number (.infinite false))) (widthTable (.integer 3))
      ∧ SameBeside { indentWidth := some (.value 4) }
          (widthTable (.number (.infinite false))) (widthTable (.integer 3))
      ∧ Settings.resolve (configured "[output]\nindent_width = inf\n")
            { indentWidth := some (.value 4) }
          = .error (.widthNotFinite .infinite)
      ∧ (Settings.resolve (configured "[output]\nindent_width = 3\n")
            { indentWidth := some (.value 4) }).isOk = true := by
  have hinfinite : Config.parse "[output]\nindent_width = inf\n"
      = .ok (widthTable (.number (.infinite false))) := by
    unfold widthTable
    cbv
  have hthree : Config.parse "[output]\nindent_width = 3\n" = .ok (widthTable (.integer 3)) := by
    unfold widthTable
    cbv
  exact ⟨swapped_configured hinfinite hthree, sameBeside_widthTable rfl _ _, by decide +kernel,
    by decide +kernel⟩

end Offside.CommandLine
