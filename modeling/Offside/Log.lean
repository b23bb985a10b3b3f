/-
  Offside.Log
  ───────────
  Messages about the progress of the work, and which of them are shown.
-/

namespace Offside

/-- How important a message is. -/
inductive Level where
  | debug
  | info
  | error
  deriving Repr, DecidableEq

/-- The name of a level, as it stands in front of a message. -/
def Level.name : Level → String
  | .debug => "DEBUG"
  | .info => "INFO"
  | .error => "ERROR"

/-- The least verbosity at which messages of a level are shown. -/
def Level.verbosity : Level → Nat
  | .debug => 2
  | .info => 1
  | .error => 0

/-- A message of a level. -/
structure LogLine where
  level : Level
  text : String
  deriving Repr, DecidableEq

/-- A message as it is shown at a verbosity: a line, or nothing. -/
def LogLine.shown (verbosity : Nat) (line : LogLine) : String :=
  if line.level.verbosity ≤ verbosity then s!"{line.level.name}: {line.text}\n" else ""

end Offside
