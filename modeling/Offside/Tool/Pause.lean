/-
  Offside.Tool.Pause
  ──────────────────
  Programs that do little: `true`, `false`, `sleep` and `yes`.
-/
import Offside.Tool.Numeral
import Offside.Tool.Quoting
import Offside.Tool.Usage

namespace Offside.Tool

/-! ## §1. Spans of time. -/

/-- A span of time: a number of seconds, or for ever. -/
inductive Span where
  | seconds (q : Rat)
  | forever

/-- The span at the start of a text, and the rest. -/
def spanAt? (cs : Octets) : Option (Span × Octets) := do
  let (x, rest) ← realAt? cs
  match x with
  | .exact false q => return (.seconds q, rest)
  | .exact true q => if q == 0 then return (.seconds 0, rest) else none
  | .infinite false => return (.forever, rest)
  | _ => none

/-- A span of time with an optional unit. -/
def interval? (word : String) : Option Span := do
  let (span, rest) ← spanAt? word.toList
  let scale : Rat ←
    match rest with
    | [] | ['s'] => some 1
    | ['m'] => some 60
    | ['h'] => some 3600
    | ['d'] => some 86400
    | _ => none
  match span with
  | .forever => return .forever
  | .seconds q => return .seconds (q * scale)

/-- The sum of spans; nothing if one of them has no end. -/
def total (spans : List Span) : Option Rat :=
  spans.foldl (fun sum s =>
    match sum, s with
    | some a, .seconds b => some (a + b)
    | _, _ => none) (some 0)

/-! ## §2. Programs. -/

/-- Wait for as long as the words say. -/
def sleep (c : Call) : Finish :=
  c.usage [] false fun u =>
    if c.words.isEmpty then c.misused "missing operand"
    else
      match u.operands.filter fun w => (interval? w).isNone with
      | [] => { seconds := total (u.operands.filterMap interval?) }
      | bad =>
        let complaints := bad.map fun w => s!"invalid time interval {curly w}"
        c.misused (s!"\n{c.name}: ".intercalate complaints)

/-- Write the words again and again.  So much is written as anybody may
want. -/
def yes (c : Call) : Finish :=
  c.usage [] false fun u =>
    let line := (if u.operands.isEmpty then "y" else " ".intercalate u.operands) ++ "\n"
    let copies := Nat.pow 2 20 / line.length + 1
    if c.closed.contains 1 then c.fail s!"standard output: {FileCause.badDescriptor.text}"
    else { writes := [.out (List.replicate copies line.toList).flatten], seconds := none }

/-- Succeed. -/
def succeed (_ : Call) : Finish := {}

/-- Fail. -/
def failing (_ : Call) : Finish := { code := 1 }

end Offside.Tool
