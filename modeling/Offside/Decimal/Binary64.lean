/-
  Offside.Decimal.Binary64
  ────────────────────────
  Numbers of double precision, computed exactly.

  A finite number is a whole mantissa times a power of two.  All of them are
  made by `ofRatio`, which rounds a fraction of whole numbers to the nearest
  number of the format, a tie going to the even mantissa; so equal numbers
  have equal parts.
-/

namespace Offside

/-- A number of double precision. -/
inductive Binary64 where
  /-- The number `mantissa * 2 ^ exponent`, with its sign. -/
  | finite (negative : Bool) (mantissa : Nat) (exponent : Int)
  | infinite (negative : Bool)
  | nan
  deriving Repr, DecidableEq

namespace Binary64

/-! ## §1. Rounding. -/

/-- The whole number nearest to `num / den`, a tie going to the even one. -/
def roundDiv (num den : Nat) : Nat :=
  let q := num / den
  let r := num % den
  if 2 * r < den then q
  else if den < 2 * r then q + 1
  else if q % 2 == 0 then q
  else q + 1

/-- The fraction `num / den` multiplied by a power of two. -/
def scale (num den : Nat) (power : Int) : Nat × Nat :=
  if power < 0 then (num, den * Nat.pow 2 (-power).toNat) else (num * Nat.pow 2 power.toNat, den)

/-- The least exponent of the format. -/
def minExponent : Int := -1074

/-- The largest exponent of the format, for a mantissa of full length. -/
def maxExponent : Int := 971

/-- The exponent at which `num / den` has a mantissa of 53 binary digits, or
the least exponent if it has fewer. -/
def exponentOf (num den : Nat) : Int :=
  let guess : Int := (num.log2 : Int) - (den.log2 : Int) - 52
  let (n, d) := scale num den (-guess)
  let exact := if n / d < Nat.pow 2 52 then guess - 1 else guess
  max exact minExponent

/-- A positive mantissa at an exponent, with a mantissa that rounding made
one digit too long shortened again. -/
def normal (negative : Bool) (mantissa : Nat) (exponent : Int) : Binary64 :=
  let (m, e) := if mantissa == Nat.pow 2 53 then (Nat.pow 2 52, exponent + 1) else (mantissa, exponent)
  if maxExponent < e then .infinite negative else .finite negative m e

/-- The number nearest to the fraction `num / den`, with a sign. -/
def ofRatio (negative : Bool) (num den : Nat) : Binary64 :=
  if num == 0 then .finite negative 0 0
  else
    let e := exponentOf num den
    let (n, d) := scale num den (-e)
    normal negative (roundDiv n d) e

/-! ## §2. Whole numbers and decimals. -/

/-- The number nearest to a whole number, or nothing if there is none of
that size. -/
def ofInt? (n : Int) : Option Binary64 :=
  match ofRatio (n < 0) n.natAbs 1 with
  | .infinite _ => none
  | x => some x

/-- How many decimal digits a whole number has. -/
def digitCount (n : Nat) : Nat := (Nat.toDigits 10 n).length

/-- The number nearest to `digits * 10 ^ power`, with a sign.  Decimals far
outside the format are settled by their size alone. -/
def ofDecimal (negative : Bool) (digits : Nat) (power : Int) : Binary64 :=
  let size := (digitCount digits : Int) + power
  if digits == 0 then .finite negative 0 0
  else if 310 < size then .infinite negative
  else if size < -330 then .finite negative 0 0
  else if power < 0 then ofRatio negative digits (Nat.pow 10 (-power).toNat)
  else ofRatio negative (digits * Nat.pow 10 power.toNat) 1

/-- Why a number has no whole part. -/
inductive NoInteger where
  | infinite
  | nan
  deriving Repr, DecidableEq

/-- What is wrong with asking for the whole part. -/
def NoInteger.message : NoInteger → String
  | .infinite => "cannot convert float infinity to integer"
  | .nan => "cannot convert float NaN to integer"

/-- The size of a finite number as a fraction of whole numbers. -/
def ratio (mantissa : Nat) (exponent : Int) : Nat × Nat :=
  scale mantissa 1 exponent

/-- The whole number next to a number on the side of zero. -/
def truncate : Binary64 → Except NoInteger Int
  | .nan => .error .nan
  | .infinite _ => .error .infinite
  | .finite negative m e =>
    let (n, d) := ratio m e
    let size : Int := (n / d : Nat)
    .ok (if negative then -size else size)

/-- Whether a number is zero, of either sign. -/
def isZero : Binary64 → Bool
  | .finite _ 0 _ => true
  | _ => false

/-- The value of a finite number. -/
def toRat? : Binary64 → Option Rat
  | .finite negative m e =>
    let (n, d) := ratio m e
    let size : Rat := (n : Rat) / (d : Rat)
    some (if negative then -size else size)
  | _ => none

end Binary64

end Offside
