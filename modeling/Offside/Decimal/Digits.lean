/-
  Offside.Decimal.Digits
  ──────────────────────
  Two ways to write a number of double precision in decimals: with a fixed
  number of places, and with the fewest digits that read back as the number.
-/
import Offside.Decimal.Binary64

namespace Offside.Binary64

/-! ## §1. Fixed places. -/

/-- The minus sign of a negative number. -/
def sign (negative : Bool) : String := if negative then "-" else ""

/-- The text of `n / 10 ^ places`, with all its places. -/
def pointed (n places : Nat) : String :=
  let digits := Nat.toDigits 10 n
  let padded := List.replicate (places + 1 - digits.length) '0' ++ digits
  let cut := padded.length - places
  if places == 0 then String.ofList padded
  else String.ofList (padded.take cut ++ '.' :: padded.drop cut)

/-- A number rounded to a fixed number of places, a tie going to the even
digit. -/
def fixed (places : Nat) : Binary64 → String
  | .nan => "nan"
  | .infinite negative => sign negative ++ "inf"
  | .finite negative m e =>
    let (n, d) := ratio m e
    sign negative ++ pointed (roundDiv (n * Nat.pow 10 places) d) places

/-! ## §2. The fewest digits. -/

/-- The power of ten of the first digit of a positive fraction. -/
def leadingPower (num den : Nat) : Int :=
  if den ≤ num then (digitCount (num / den) : Int) - 1
  else
    -- `10 ^ k` is the first power of ten that lifts the fraction to one
    let k := digitCount (den / num)
    if den ≤ num * Nat.pow 10 (k - 1) then -((k : Int) - 1) else -(k : Int)

/-- The decimals `digits * 10 ^ power` next to a positive fraction on the
grid of that power, the nearer first, and of two equally near ones the one
with an even last digit. -/
def neighbours (num den : Nat) (power : Int) : List Nat :=
  let (n, d) :=
    if power < 0 then (num * Nat.pow 10 (-power).toNat, den) else (num, den * Nat.pow 10 power.toNat)
  let q := n / d
  if roundDiv n d == q then [q, q + 1] else [q + 1, q]

/-- The first of the candidate digit counts at which a neighbour of the
number reads back as the number, with that neighbour and its power. -/
def searchDigits (x : Binary64) (num den : Nat) (first : Int) :
    List Nat → Nat × Int
  | [] => (0, 0)
  | count :: more =>
    let power := first - (count : Int) + 1
    match (neighbours num den power).find? fun q => ofDecimal false q power == x with
    | some q => (q, power)
    | none => searchDigits x num den first more

/-- The fewest digits that read back as a positive finite number, and the
power of ten of the last of them. -/
def fewestDigits (m : Nat) (e : Int) : Nat × Int :=
  let (n, d) := ratio m e
  searchDigits (.finite false m e) n d (leadingPower n d)
    [1, 2, 3, 4, 5, 6, 7, 8, 9, 10, 11, 12, 13, 14, 15, 16, 17]

/-- Digits without the zeros at their end, which move into the power. -/
def dropZeros : List Char → Int → List Char × Int
  | digits, power =>
    let zeros := (digits.reverse.takeWhile (· == '0')).length
    (digits.take (digits.length - zeros), power + zeros)

/-- A decimal in positions if its first digit stands between the fourth
place after the point and the sixteenth before it, with an exponent
otherwise. -/
def decimalText (digits : List Char) (power : Int) : String :=
  let point := (digits.length : Int) + power
  if 16 < point || point ≤ -4 then
    let exponent := point - 1
    let size := Nat.toDigits 10 exponent.natAbs
    let padded := if size.length < 2 then '0' :: size else size
    let mark := if exponent < 0 then '-' else '+'
    let tail := digits.drop 1
    String.ofList
      (digits.take 1 ++ (if tail.isEmpty then [] else '.' :: tail) ++ 'e' :: mark :: padded)
  else if point ≤ 0 then
    String.ofList ('0' :: '.' :: List.replicate (-point).toNat '0' ++ digits)
  else
    let whole := point.toNat
    let filled := digits ++ List.replicate (whole - digits.length) '0'
    let places := filled.drop whole
    String.ofList (filled.take whole ++ '.' :: (if places.isEmpty then ['0'] else places))

/-- **The shortest text of a number**: the fewest digits that read back. -/
def shortest : Binary64 → String
  | .nan => "nan"
  | .infinite negative => sign negative ++ "inf"
  | .finite negative 0 _ => sign negative ++ "0.0"
  | .finite negative m e =>
    let (q, power) := fewestDigits m e
    let (digits, power) := dropZeros (Nat.toDigits 10 q) power
    sign negative ++ decimalText digits power

end Offside.Binary64
