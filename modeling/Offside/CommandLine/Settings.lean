/-
  Offside.CommandLine.Settings
  ────────────────────────────
  What is to be done: the command line on top of the config file on top of
  the defaults.
-/
import Offside.CommandLine.Arguments
import Offside.Config.Reader
import Offside.Formatter
import Offside.Project.Skeleton

namespace Offside.CommandLine

open Config Compiler

/-! ## §1. Settings. -/

/-- Everything that a run of the program depends on beside the files. -/
structure Settings where
  input : Option Path
  output : Option Path
  options : Options
  formatCommand : List String
  formatTimeout : Given Binary64
  projectSource : Path
  projectOutput : Path
  recursive : Bool
  watch : Bool
  init : Bool
  debug : Bool
  verbosity : Nat
  deriving Repr, DecidableEq

/-- Why there are no settings. -/
inductive SettingsError where
  /-- The config file does not follow the config language. -/
  | malformedConfig
  /-- The layout that is asked for is refused. -/
  | options (error : OptionsError)
  /-- The config file is not text. -/
  | undecodable
  /-- The config file holds an integer that is too long to be read, or values
  that are nested too deeply. -/
  | config (error : Config.Error)
  /-- A value of the config file has no text. -/
  | text (error : TextError)
  /-- The indentation width is not a finite number. -/
  | widthNotFinite (reason : Binary64.NoInteger)
  /-- An empty list is given in place of an indentation width. -/
  | noWidth
  /-- The time limit is larger than any number of double precision. -/
  | timeoutTooLarge
  /-- A path cannot be looked at. -/
  | files (error : FileError)
  deriving Repr, DecidableEq

/-- The wording of such an error. -/
def SettingsError.message : SettingsError → String
  | .malformedConfig => "invalid config file: " ++ Config.Error.malformed.message
  | .options e => e.message
  | .undecodable => "config file is not text"
  | .config e => e.message
  | .text e => e.message
  | .widthNotFinite reason => reason.message
  | .noWidth => "'<' not supported between instances of 'list' and 'int'"
  | .timeoutTooLarge => Time.tooLargeMessage
  | .files e => e.message

/-- Whether an error is told to the user and ends the run in order. -/
def SettingsError.isReported : SettingsError → Bool
  | .malformedConfig | .options _ => true
  | _ => false

/-! ## §2. The config file. -/

/-- A text that is not empty. -/
def given (text : Option String) : Option String :=
  match text with
  | some "" => none
  | t => t

/-- What a path leads to, if it leads anywhere. -/
def lookAt? (files : Files) (p : Path) : Except SettingsError (Option FileEntry) :=
  (files.look p).mapError .files

/-- The directory in which the config file is looked for: the input if that
is a directory, or the one that holds it. -/
def baseDirectory (files : Files) (input : Option Path) : Except SettingsError Path :=
  match input with
  | none => .ok Path.here
  | some p => do
    match ← lookAt? files p with
    | some .directory => return p
    | _ => return p.parent

/-- The table of a config file; a file that is not there is an empty one. -/
def loadConfig (files : Files) (path : Path) : Except SettingsError Table := do
  match ← lookAt? files path with
  | none | some .directory => return []
  | some (.file bytes ..) =>
    match String.fromUTF8? bytes with
    | none => throw .undecodable
    | some text =>
      match Config.parse text with
      | .ok table => return table
      | .error .malformed => throw .malformedConfig
      | .error e => throw (.config e)

/-! ## §3. Merging. -/

/-- The indentation width of the config file. -/
def configWidth (output : Table) : Except SettingsError Int :=
  match Table.get? output "indent_width" with
  | some (.integer n) => .ok n
  | some (.number x) =>
    match x.truncate with
    | .ok n => .ok n
    | .error reason => .error (.widthNotFinite reason)
  | _ => .ok 2

/-- The time limit of the config file. -/
def configTimeout (format : Table) : Except SettingsError Binary64 :=
  match Table.get? format "timeout" with
  | some (.integer n) =>
    match Binary64.ofInt? n with
    | some x => .ok x
    | none => .error .timeoutTooLarge
  | some (.number x) => .ok x
  | _ => .ok (Binary64.ofRatio false 5 1)

/-- The text of a value. -/
def textOf (v : Value) : Except SettingsError String := v.asText.mapError .text

/-- The formatter command of the config file; an empty one does not count. -/
def configCommand (format : Table) : Except SettingsError (List String) :=
  match Table.get? format "command" with
  | some (.array (part :: parts)) => (part :: parts).mapM textOf
  | _ => .ok Formatter.defaultCommand

/-- The text of a setting, or a default. -/
def settingText (t : Table) (key default : String) : Except SettingsError String :=
  match Table.get? t key with
  | some v => textOf v
  | none => .ok default

/-- Whether a setting is a yes, or a default. -/
def settingFlag (t : Table) (key : String) (default : Bool) : Bool :=
  ((Table.get? t key).map Value.isTrue).getD default

/-- The style that is asked for: by the command line, or by the name in the
config file. -/
def mergedStyle (args : Arguments) (name : String) : Except SettingsError IndentStyle :=
  match args.indentStyle with
  | some (.value style) => .ok style
  | some .emptyList => .error (.options .noStyle)
  | none => (IndentStyle.ofName name).mapError .options

/-- The width that is asked for: by the command line, or by the config
file. -/
def mergedWidth (args : Arguments) (width : Int) : Except SettingsError Nat :=
  match args.indentWidth with
  | some (.value width) => (Options.width width).mapError .options
  | some .emptyList => .error .noWidth
  | none => (Options.width width).mapError .options

/-- The settings that the command line makes of a config file.  The values of
the config file are read first, from the top, and then the style and the
width are looked at. -/
def merge (args : Arguments) (config : Table) : Except SettingsError Settings := do
  let output := config.section "output"
  let format := config.section "format"
  let project := config.section "project"
  let width ← configWidth output
  let style ← settingText output "indent_style" "spaces"
  let formatCommand ← configCommand format
  let timeout ← configTimeout format
  let source ← settingText project "source" projectSource
  let target ← settingText project "output" projectOutput
  let indentStyle ← mergedStyle args style
  let indentWidth ← mergedWidth args width
  return {
    input := (given args.input).map Path.ofString
    output := (given args.output).map Path.ofString
    options :=
      { indentWidth, indentStyle
        minify := settingFlag output "minify" false || args.minify
        useFormatter := settingFlag format "enabled" true && !args.noFormat }
    formatCommand
    formatTimeout := args.formatTimeout.getD (.value timeout)
    projectSource := Path.ofString source
    projectOutput := Path.ofString target
    recursive := args.recursive
    watch := args.watch
    init := args.init
    debug := args.debug
    verbosity := args.verbosity }

/-- **The settings of a run.** -/
def Settings.resolve (files : Files) (args : Arguments) : Except SettingsError Settings := do
  let input := (given args.input).map Path.ofString
  let base ← baseDirectory files input
  let path :=
    match given args.config with
    | some config => Path.ofString config
    | none => base.child Project.configName
  merge args (← loadConfig files path)

end Offside.CommandLine
