/-
  Offside.Tool.Outcome
  ────────────────────
  What can come of running a command.

  A command reads its input to the end and answers with an exit code and two
  outputs; or it is not found, cannot be started, or takes too long.  A host
  is anything that turns a request into such an outcome.
-/
import Offside.Files.Store

namespace Offside

/-! ## §1. Time limits. -/

/-- Why a number of seconds cannot be waited for. -/
inductive TimeLimitError where
  /-- It is not finite. -/
  | notFinite (reason : Binary64.NoInteger)
  /-- It is more than can be waited for at once. -/
  | tooLong
  /-- It is more than a clock can count. -/
  | beyondClock
  /-- It is larger than any number of double precision. -/
  | beyondDouble
  /-- It is a list and not a number. -/
  | notNumber
  deriving Repr, DecidableEq

/-- The wording of such a reason. -/
def TimeLimitError.message : TimeLimitError → String
  | .notFinite reason => reason.message
  | .tooLong => "timeout is too large"
  | .beyondClock => "timestamp too large to convert to C _PyTime_t"
  | .beyondDouble => Time.tooLargeMessage
  | .notNumber => "unsupported operand type(s) for +: 'float' and 'list'"

/-- The most milliseconds that can be waited for at once. -/
def longestWait : Nat := Nat.pow 2 31 - 1

/-- The most milliseconds that a clock of nanoseconds can count. -/
def longestClock : Nat := (Nat.pow 2 63 - 1) / 1000000

/-- The number of seconds to wait for. -/
def Time.limit (t : Time) : Except TimeLimitError Rat := do
  let seconds ← exact t
  if (longestClock : Rat) < seconds * 1000 then throw .beyondClock
  else if (longestWait : Rat) < seconds * 1000 then throw .tooLong
  else return seconds
where
  /-- The number itself; one below all others counts as below zero. -/
  exact : Time → Except TimeLimitError Rat
    | .whole n => if (Binary64.ofInt? n).isSome then .ok n else .error .beyondDouble
    | .real (.infinite true) => .ok (-1)
    | .real (.infinite false) => .error (.notFinite .infinite)
    | .real x =>
      match x.toRat? with
      | some r => .ok r
      | none => .error (.notFinite .nan)

/-! ## §2. Running commands. -/

namespace Tool

/-- A command to run: its words, what it reads, and how long it may take. -/
structure Request where
  command : List String
  input : ByteArray
  timeout : Time

/-- How running a command ends. -/
inductive Outcome where
  /-- There is no such command. -/
  | notFound
  /-- A word of the command has a null character in it. -/
  | nullInWord
  /-- The command is there and cannot be started. -/
  | cannotStart (error : FileError)
  /-- The command did not end in time. -/
  | timedOut
  /-- The time limit is not a number of seconds to wait. -/
  | badTimeout (reason : TimeLimitError)
  /-- The command ended by itself.  It may have changed files. -/
  | finished (code : Int) (stdout stderr : ByteArray) (files : Option Files)

/-- Something that runs commands among files. -/
abbrev Host := Files → Request → Outcome

/-- A host that finds no command. -/
def Host.none : Host := fun _ _ => .notFound

/-- A host that starts commands and then cannot tell how long to wait for
them. -/
def Host.withoutLimit (host : Host) : Host := fun files r =>
  match host files r with
  | .timedOut | .badTimeout _ | .finished .. => .badTimeout .notNumber
  | outcome => outcome

end Tool

end Offside
