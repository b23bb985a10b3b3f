/-
  Offside.Time
  ────────────
  Moments and spans of time, in seconds.

  A time is whole or of double precision, as it was given.  Whole times are
  compared and subtracted exactly; where one of two times is of double
  precision, their difference is too.
-/
import Offside.Decimal.Arithmetic
import Offside.Decimal.Digits

namespace Offside

/-- A moment or a span of time, in seconds. -/
inductive Time where
  | whole (n : Int)
  | real (x : Binary64)
  deriving Repr, DecidableEq

namespace Time

/-- The text of a number of seconds. -/
def text : Time → String
  | .whole n => toString n
  | .real x => x.shortest

/-! ## §1. Differences. -/

/-- A time of double precision, unless it is larger than all of those. -/
def real? : Time → Option Binary64
  | .whole n => Binary64.ofInt? n
  | .real x => some x

/-- The time from one moment to another, unless one of the two is too large
to be told in the precision of the other. -/
def since (now past : Time) : Option Time :=
  match now, past with
  | .whole a, .whole b => some (.whole (a - b))
  | a, b => do return .real ((← a.real?).sub (← b.real?))

/-- What is said of a time that is too large for double precision. -/
def tooLargeMessage : String := "int too large to convert to float"

/-! ## §2. Order. -/

/-- Whether a time is before another one; what is no number is before
nothing. -/
def before : Time → Time → Bool
  | .real .nan, _ | _, .real .nan => false
  | .real (.infinite a), .real (.infinite b) => a && !b
  | .real (.infinite a), _ => a
  | _, .real (.infinite b) => !b
  | .whole a, .whole b => decide (a < b)
  | .whole a, .real y => decide ((a : Rat) < y.value)
  | .real x, .whole b => decide (x.value < (b : Rat))
  | .real x, .real y => decide (x.value < y.value)

/-! ## §3. Times of files. -/

/-- The number of nanoseconds in a second. -/
def nanos : Binary64 := Binary64.ofRatio false (Nat.pow 10 9) 1

/-- The number of seconds in a nanosecond. -/
def nano : Binary64 := Binary64.ofRatio false 1 (Nat.pow 10 9)

/-- The modification time that a file keeps when it is given a time: whole
nanoseconds, the rest cut off, read back in double precision. -/
def stamp : Time → Binary64
  | .whole n => Binary64.ofRat false n
  | .real x =>
    let seconds : Int := if x.isNegative then -(-x.value).floor else x.value.floor
    let part := Binary64.ofRat false (x.value - seconds)
    let ticks := (part.mul nanos).floor
    let (seconds, ticks) := if ticks < 0 then (seconds - 1, ticks + Int.pow 10 9) else (seconds, ticks)
    (Binary64.ofRat false seconds).add (nano.mul (Binary64.ofRat false ticks))

end Time

end Offside
