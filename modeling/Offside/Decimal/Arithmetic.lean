/-
  Offside.Decimal.Arithmetic
  ──────────────────────────
  Sums, differences, products and the order of numbers of double precision.

  Every result is computed exactly and then rounded once.  Only zeros,
  infinities and what is no number need rules of their own.
-/
import Offside.Decimal.Binary64

namespace Offside.Binary64

/-! ## §1. Values. -/

/-- The value of a finite number; nothing else has one. -/
def value : Binary64 → Rat
  | x => x.toRat?.getD 0

/-- Whether a number has a minus sign. -/
def isNegative : Binary64 → Bool
  | .finite negative .. => negative
  | .infinite negative => negative
  | .nan => false

/-- The number nearest to a fraction.  A zero gets the given sign. -/
def ofRat (zeroNegative : Bool) (q : Rat) : Binary64 :=
  if q.num == 0 then .finite zeroNegative 0 0
  else ofRatio (decide (q.num < 0)) q.num.natAbs q.den

/-! ## §2. Operations. -/

/-- The number with the other sign. -/
def neg : Binary64 → Binary64
  | .finite negative m e => .finite (!negative) m e
  | .infinite negative => .infinite (!negative)
  | .nan => .nan

/-- The sum of two numbers; a sum of zero is negative only if both are. -/
def add : Binary64 → Binary64 → Binary64
  | .nan, _ | _, .nan => .nan
  | .infinite a, .infinite b => if a == b then .infinite a else .nan
  | .infinite a, _ => .infinite a
  | _, .infinite b => .infinite b
  | x, y => ofRat (x.isNegative && y.isNegative) (x.value + y.value)

/-- The difference of two numbers. -/
def sub (x y : Binary64) : Binary64 := x.add y.neg

/-- The product of two numbers; there is none of zero and infinity. -/
def mul : Binary64 → Binary64 → Binary64
  | .nan, _ | _, .nan => .nan
  | x@(.finite ..), y@(.finite ..) =>
    ofRat (x.isNegative != y.isNegative) (x.value * y.value)
  | x, y => if x.isZero || y.isZero then .nan else .infinite (x.isNegative != y.isNegative)

/-! ## §3. Whole parts. -/

/-- The whole number next below a finite number. -/
def floor (x : Binary64) : Int := x.value.floor

end Offside.Binary64
