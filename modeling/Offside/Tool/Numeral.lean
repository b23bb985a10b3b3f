/-
  Offside.Tool.Numeral
  ────────────────────
  How programs read and write numbers.

  A number is read from the start of a word; what is left of the word tells
  whether it was all there is.  A number is written into a slot, with a
  sign, leading zeros and a mark of its base as the slot asks for them.
-/
import Offside.Decimal.Arithmetic
import Offside.Decimal.Digits
import Offside.Tool.Octets

namespace Offside.Tool

/-! ## §1. Digits. -/

/-- The number that digits of a base write, each with its value. -/
def digitsValue (base : Nat) (digits : List Nat) : Nat :=
  digits.foldl (fun n d => n * base + d) 0

/-- The value of a decimal digit. -/
def digit? (c : Char) : Option Nat := if c.isDigit then some (c.toNat - 48) else none

/-- The value of an octal digit. -/
def octalDigit? (c : Char) : Option Nat :=
  if '0' ≤ c && c ≤ '7' then some (c.toNat - 48) else none

/-- The value of a hexadecimal digit. -/
def hexDigit? (c : Char) : Option Nat :=
  if c.isDigit then some (c.toNat - 48)
  else if 'a' ≤ c && c ≤ 'f' then some (c.toNat - 87)
  else if 'A' ≤ c && c ≤ 'F' then some (c.toNat - 55)
  else none

/-- The number at the start of a text, in digits of a base, and the rest;
nothing if there is no digit. -/
def naturalAt? (base : Nat) (value? : Char → Option Nat) (cs : Octets) : Option (Nat × Octets) :=
  let digits := cs.takeWhile fun c => (value? c).isSome
  if digits.isEmpty then none
  else some (digitsValue base (digits.filterMap value?), cs.drop digits.length)

/-- Whether a byte is a blank in front of a number. -/
def isNumberBlank (c : Char) : Bool := c == ' ' || (9 ≤ c.toNat && c.toNat ≤ 13)

/-- A sign, and what follows it. -/
def signAt (cs : Octets) : Bool × Octets :=
  match cs with
  | '-' :: rest => (true, rest)
  | '+' :: rest => (false, rest)
  | _ => (false, cs)

/-! ## §2. Reading integers. -/

/-- A number without a sign, in the base that its first digits tell. -/
def basedAt? (cs : Octets) : Option (Nat × Octets) :=
  match cs with
  | '0' :: x :: rest =>
    if x == 'x' || x == 'X' then (naturalAt? 16 hexDigit? rest).or (some (0, x :: rest))
    else naturalAt? 8 octalDigit? cs
  | '0' :: rest => some (0, rest)
  | _ => naturalAt? 10 digit? cs

/-- An integer at the start of a word, and the rest. -/
def integerAt? (cs : Octets) : Option (Int × Octets) :=
  let (negative, body) := signAt (cs.dropWhile isNumberBlank)
  (basedAt? body).map fun p => (if negative then -(p.1 : Int) else p.1, p.2)

/-- A decimal integer at the start of a word, and the rest. -/
def decimalAt? (cs : Octets) : Option (Int × Octets) :=
  let (negative, body) := signAt (cs.dropWhile isNumberBlank)
  (naturalAt? 10 digit? body).map fun p => (if negative then -(p.1 : Int) else p.1, p.2)

/-- The smallest integer of one machine word. -/
def leastWord : Int := -Int.pow 2 63

/-- The largest integer of one machine word. -/
def mostWord : Int := Int.pow 2 63 - 1

/-- An integer as a machine word holds it. -/
def wrapped (n : Int) : Int := (n + Int.pow 2 63) % Int.pow 2 64 - Int.pow 2 63

/-! ## §3. Reading real numbers. -/

/-- A power of a whole number, which may be negative. -/
def ratPower (base : Nat) (power : Int) : Rat :=
  if power < 0 then 1 / (Nat.pow base power.natAbs : Rat) else (Nat.pow base power.natAbs : Rat)

/-- An exponent after one of two marks, and the rest; a mark without digits
is none. -/
def exponentAt (marks : List Char) (cs : Octets) : Int × Octets :=
  match cs with
  | m :: rest =>
    if marks.contains m then
      let (negative, body) := signAt rest
      match naturalAt? 10 digit? body with
      | none => (0, cs)
      | some (n, rest) =>
        -- an exponent beyond these bounds says no more than the bounds do
        let n : Int := min n 5000
        (if negative then -n else n, rest)
    else (0, cs)
  | [] => (0, [])

/-- A number that digits of a base write, with a point and an exponent, and
the rest. -/
def fractionAt? (base : Nat) (value? : Char → Option Nat) (marks : List Char) (unit : Nat)
    (cs : Octets) : Option (Rat × Octets) :=
  let isDigit (c : Char) : Bool := (value? c).isSome
  let whole := cs.takeWhile isDigit
  let (places, rest) :=
    match cs.drop whole.length with
    | '.' :: more =>
      let places := more.takeWhile isDigit
      (places, more.drop places.length)
    | rest => ([], rest)
  if whole.isEmpty && places.isEmpty then none
  else
    let value := digitsValue base ((whole ++ places).filterMap value?)
    let (power, rest) := exponentAt marks rest
    some ((value : Rat) / (Nat.pow base places.length : Rat) * ratPower unit power, rest)

/-- A real number as it is written. -/
inductive Numeral where
  | exact (negative : Bool) (q : Rat)
  | infinite (negative : Bool)
  | nan (negative : Bool)

/-- A real number at the start of a word, and the rest. -/
def realAt? (cs : Octets) : Option (Numeral × Octets) :=
  let (negative, body) := signAt (cs.dropWhile isNumberBlank)
  let starts (word : String) : Bool := word.toList.isPrefixOf (body.map Char.toLower)
  if starts "infinity" then some (.infinite negative, body.drop 8)
  else if starts "inf" then some (.infinite negative, body.drop 3)
  else if starts "nan" then some (.nan negative, body.drop 3)
  else
    let hex := if starts "0x" then fractionAt? 16 hexDigit? ['p', 'P'] 2 (body.drop 2) else none
    (hex.or (fractionAt? 10 digit? ['e', 'E'] 10 body)).map fun p => (.exact negative p.1, p.2)

/-- Which real numbers a machine has: how many bits they have, and between
which powers of two the last of them lies. -/
structure RealFormat where
  bits : Nat
  least : Int
  most : Int

/-- Numbers of double precision. -/
def RealFormat.double : RealFormat := ⟨53, -1074, 971⟩

/-- Numbers of extended precision. -/
def RealFormat.extended : RealFormat := ⟨64, -16445, 16320⟩

/-- The largest power of two that is not above a fraction. -/
def floorLog (num den : Nat) : Int :=
  let guess := (Nat.log2 num : Int) - Nat.log2 den
  let (n, d) := Binary64.scale num den (-guess)
  if d ≤ n then guess else guess - 1

/-- The number of a format that is nearest, and whether the number was out of
its range. -/
def Numeral.rounded (f : RealFormat) : Numeral → Numeral × Bool
  | .exact negative q =>
    if q.num == 0 then (.exact negative 0, false)
    else
      let (num, den) := (q.num.natAbs, q.den)
      let power := max f.least (floorLog num den - (f.bits - 1))
      let (n, d) := Binary64.scale num den (-power)
      let whole := Binary64.roundDiv n d
      let (whole, power) := if whole == Nat.pow 2 f.bits then (whole / 2, power + 1) else (whole, power)
      if f.most < power then (.infinite negative, true)
      else (.exact negative ((whole : Rat) * ratPower 2 power), whole * d != n && whole < Nat.pow 2 (f.bits - 1))
  | x => (x, false)

/-! ## §4. Slots. -/

/-- How a number is written. -/
structure Slot where
  left : Bool := false
  zeros : Bool := false
  plus : Bool := false
  blank : Bool := false
  marked : Bool := false
  width : Nat := 0
  precision : Option Nat := none

/-- Bytes filled up with blanks to the width of a slot. -/
def Slot.fill (f : Slot) (cs : Octets) : Octets :=
  let gap := List.replicate (f.width - cs.length) ' '
  if f.left then cs ++ gap else gap ++ cs

/-- A number from its mark in front and its digits; zeros may fill the gap
between the two. -/
def Slot.number (f : Slot) (zeros : Bool) (front digits : List Char) : Octets :=
  if zeros && !f.left then
    front ++ List.replicate (f.width - front.length - digits.length) '0' ++ digits
  else f.fill (front ++ digits)

/-- What stands in front of a number for its sign. -/
def Slot.sign (f : Slot) (negative : Bool) : List Char :=
  if negative then ['-'] else if f.plus then ['+'] else if f.blank then [' '] else []

/-- Digits with zeros in front up to the precision of a slot; a zero without
any precision is not written at all. -/
def Slot.digits (f : Slot) (n base : Nat) : List Char :=
  let digits := if n == 0 && f.precision == some 0 then [] else Nat.toDigits base n
  List.replicate (f.precision.getD 1 - digits.length) '0' ++ digits

/-- A decimal integer in a slot. -/
def Slot.decimal (f : Slot) (n : Int) : Octets :=
  f.number (f.zeros && f.precision.isNone) (f.sign (n < 0)) (f.digits n.natAbs 10)

/-- A natural number in a slot, in one of the bases 8, 10 and 16. -/
def Slot.natural (f : Slot) (base : Nat) (upper : Bool) (n : Nat) : Octets :=
  let digits := f.digits n base
  let digits :=
    if f.marked && base == 8 && digits.head? != some '0' then '0' :: digits else digits
  let front := if f.marked && base == 16 && n != 0 then ['0', 'x'] else []
  let raise (cs : List Char) : List Char := if upper then cs.map Char.toUpper else cs
  f.number (f.zeros && f.precision.isNone) (raise front) (raise digits)

/-! ## §5. Real numbers in slots. -/

/-- How the digits of a real number are laid out. -/
inductive RealStyle where
  | fixed
  | power
  | shorter
  | binary
  deriving DecidableEq

/-- Digits with a point before the last places. -/
def pointedDigits (marked : Bool) (n places : Nat) : List Char :=
  let digits := Nat.toDigits 10 n
  let digits := List.replicate (places + 1 - digits.length) '0' ++ digits
  let whole := digits.take (digits.length - places)
  let rest := digits.drop (digits.length - places)
  if rest.isEmpty then (if marked then whole ++ ['.'] else whole) else whole ++ '.' :: rest

/-- A ratio times a power of ten, rounded. -/
def scaledTo (num den : Nat) (power : Int) : Nat :=
  if power < 0 then Binary64.roundDiv num (den * Nat.pow 10 power.natAbs)
  else Binary64.roundDiv (num * Nat.pow 10 power.natAbs) den

/-- The digits and the power of ten of a ratio with a number of places. -/
def scientific (num den places : Nat) : Nat × Int :=
  if num == 0 then (0, 0)
  else
    let power := Binary64.leadingPower num den
    let n := scaledTo num den (places - power)
    if n == Nat.pow 10 (places + 1) then (Nat.pow 10 places, power + 1) else (n, power)

/-- A power of ten behind its mark, with at least two digits. -/
def powerText (power : Int) : List Char :=
  let digits := Nat.toDigits 10 power.natAbs
  'e' :: (if power < 0 then '-' else '+') :: (List.replicate (2 - digits.length) '0' ++ digits)

/-- Digits without the zeros at the end of their places. -/
def trimmedPlaces (cs : List Char) : List Char :=
  if cs.contains '.' then
    let rest := cs.reverse.dropWhile (· == '0')
    (match rest with | '.' :: more => more | rest => rest).reverse
  else cs

/-- The digits of a ratio of a format in base sixteen, and its power of two. -/
def binaryDigits (format : RealFormat) (marked : Bool) (precision : Option Nat) (num den : Nat) :
    List Char :=
  let places := (format.bits - 1) / 4
  let power := if num == 0 then 0 else floorLog num den - (format.bits - 1 - 4 * places : Nat)
  let shown := min places (precision.getD places)
  let (n, d) := Binary64.scale num den (4 * shown - power)
  let digits := Nat.toDigits 16 (Binary64.roundDiv n d)
  let digits := List.replicate (shown + 1 - digits.length) '0' ++ digits
  let whole := digits.take (digits.length - shown)
  let rest := digits.drop (digits.length - shown)
  let rest :=
    match precision with
    | none => (rest.reverse.dropWhile (· == '0')).reverse
    | some p => rest ++ List.replicate (p - shown) '0'
  let point := if rest.isEmpty && !marked then [] else ['.']
  whole ++ point ++ rest ++ 'p' :: (if power < 0 then '-' else '+') :: Nat.toDigits 10 power.natAbs

/-- The digits of a ratio in a style. -/
def realDigits (format : RealFormat) (style : RealStyle) (marked : Bool) (precision : Option Nat)
    (num den : Nat) : List Char :=
  let places := precision.getD 6
  match style with
  | .fixed => pointedDigits marked (scaledTo num den places) places
  | .power =>
    let (n, power) := scientific num den places
    pointedDigits marked n places ++ powerText power
  | .shorter =>
    let places := max places 1
    let (n, power) := scientific num den (places - 1)
    let trim (cs : List Char) : List Char := if marked then cs else trimmedPlaces cs
    if power < -4 || (places : Int) ≤ power then
      trim (pointedDigits marked n (places - 1)) ++ powerText power
    else
      let after := ((places : Int) - 1 - power).toNat
      trim (pointedDigits marked (scaledTo num den after) after)
  | .binary => binaryDigits format marked precision num den

/-- A real number of a format in a slot. -/
def Slot.real (f : Slot) (format : RealFormat) (style : RealStyle) (upper : Bool) (x : Numeral) :
    Octets :=
  let raise (cs : List Char) : List Char := if upper then cs.map Char.toUpper else cs
  match x with
  | .exact negative q =>
    let digits := realDigits format style f.marked f.precision q.num.natAbs q.den
    let base := if style == .binary then ['0', 'x'] else []
    f.number f.zeros (f.sign negative ++ raise base) (raise digits)
  | .infinite negative => f.fill (f.sign negative ++ raise "inf".toList)
  | .nan negative => f.fill (f.sign negative ++ raise "nan".toList)

end Offside.Tool
