/-
  Offside.Formatter
  ─────────────────
  Passing markup through a formatter.

  A formatter gets the markup and gives back better markup, or refuses.  The
  usual formatter is a command that reads the markup and writes its result;
  `Formatter.command` says what becomes of every outcome of running it.
-/
import Offside.Log
import Offside.Tool.Outcome
import Offside.Text.Blank

namespace Offside

open Text

/-! ## §1. Refusals. -/

/-- Why a formatter gives no markup. -/
inductive FormatterError where
  | noCommand
  | notFound (name : String)
  | timedOut (name : String) (timeout : Time)
  | cannotStart (name : String) (error : FileError)
  /-- The command ended with a code other than zero and said `stderr`. -/
  | failed (name : String) (code : Int) (stderr : String)
  /-- A formatter that is not a command refused in its own words. -/
  | refused (message : String)
  deriving Repr, DecidableEq

/-- The wording of a refusal. -/
def FormatterError.message : FormatterError → String
  | .noCommand => "no formatter command configured"
  | .notFound name => s!"formatter '{name}' not found"
  | .timedOut name timeout =>
    s!"formatter '{name}' timed out after {timeout.text}s"
  | .cannotStart name error =>
    s!"formatter '{name}' could not be started: {error.message}"
  | .failed name code stderr =>
    let said := trimString stderr
    s!"formatter '{name}' failed (exit {code})"
      ++ (if said.isEmpty then "" else ": " ++ said)
  | .refused message => message

/-- What keeps a formatter from giving markup. -/
inductive FormatFailure where
  /-- A refusal, after which the markup is tidied without a formatter. -/
  | error (reason : FormatterError)
  /-- A word of the command has a null character in it. -/
  | nullInWord
  /-- The output of the command is not text. -/
  | undecodable
  /-- The time limit is not a number of seconds to wait. -/
  | badTimeout (reason : TimeLimitError)
  deriving Repr, DecidableEq

/-- What a formatter gives back, and what it has to say. -/
structure Formatted where
  log : List LogLine
  result : Except FormatFailure String
  /-- The files, if they were changed. -/
  files : Option Files := none

/-- A formatter, which may look at the files and change them while it works. -/
structure Formatter where
  format : Files → String → Formatted

/-! ## §2. Commands. -/

/-- The text of what a command wrote, with plain newlines. -/
def decoded? (bytes : ByteArray) : Option String :=
  (String.fromUTF8? bytes).map fun s => String.ofList (plainNewlines s.toList)

/-- What becomes of an outcome of running the command called `name`. -/
def Formatter.ofOutcome (name : String) (timeout : Time) :
    Tool.Outcome → Except FormatFailure String
  | .notFound => .error (.error (.notFound name))
  | .nullInWord => .error .nullInWord
  | .cannotStart error => .error (.error (.cannotStart name error))
  | .timedOut => .error (.error (.timedOut name timeout))
  | .badTimeout reason => .error (.badTimeout reason)
  | .finished code stdout stderr _ =>
    match decoded? stdout, decoded? stderr with
    | some out, some err =>
      if code == 0 then .ok out else .error (.error (.failed name code err))
    | _, _ => .error .undecodable

/-- The name of a formatter command. -/
def Formatter.commandName (command : List String) : String := command.head?.getD ""

/-- **The command formatter.**  That a command is started is told once it is
found. -/
def Formatter.command (host : Tool.Host) (command : List String)
    (timeout : Time) : Formatter where
  format files html :=
    if command.isEmpty then { log := [], result := .error (.error .noCommand) }
    else
      let name := Formatter.commandName command
      let outcome := host files ⟨command, html.toUTF8, timeout⟩
      let started : LogLine :=
        ⟨.debug, "running formatter " ++ " ".intercalate command⟩
      let result := Formatter.ofOutcome name timeout outcome
      match outcome with
      | .notFound => { log := [], result }
      | .finished _ _ _ files => { log := [started], result, files }
      | _ => { log := [started], result }

/-- The command that formats markup unless another is chosen. -/
def Formatter.defaultCommand : List String :=
  ["prettier", "--parser", "html", "--print-width", "100"]

/-- How long a formatter command may take unless told otherwise. -/
def Formatter.defaultTimeout : Time := .real (Binary64.ofRatio false 5 1)

end Offside
