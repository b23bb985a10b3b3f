/-
  Offside.CommandLine.Number
  ──────────────────────────
  Numbers as they are typed on a command line.

  Blanks around a number do not count, digits of every script do, and single
  underscores may stand between digits.
-/
import Offside.Config.Scalar
import Offside.Decimal.Binary64
import Offside.Text.Blank
import Offside.Text.Digit

namespace Offside.CommandLine

open Text

/-! ## §1. Plain characters. -/

/-- The blanks of a text of ASCII characters. -/
def isPlainBlank (c : Char) : Bool := c == ' ' || (9 ≤ c.toNat && c.toNat ≤ 13)

/-- A character with digits of other scripts and blanks that are not ASCII
replaced by plain ones. -/
def plainChar (c : Char) : Char :=
  match digitValue? c with
  | some d => Char.ofNat (48 + d)
  | none => if isBlank c && 127 < c.toNat then ' ' else c

/-- A typed text in plain characters, without blanks at either end. -/
def plainChars (cs : List Char) : List Char :=
  let plain := if cs.all fun c => c.toNat < 128 then cs else cs.map plainChar
  ((plain.dropWhile isPlainBlank).reverse.dropWhile isPlainBlank).reverse

/-- A text after its sign, and whether that was a minus. -/
def signed (cs : List Char) : Bool × List Char :=
  match cs with
  | '-' :: rest => (true, rest)
  | '+' :: rest => (false, rest)
  | _ => (false, cs)

/-- A text without its underscores, each of which must stand between two
digits. -/
def withoutUnderscores? (cs : List Char) : Option (List Char) :=
  let between := cs.zip (' ' :: cs) |>.zip (cs.drop 1 ++ [' '])
  if between.all fun t =>
      t.1.1 != '_' || (t.1.2.isDigit && t.2.isDigit) then
    some (cs.filter (· != '_'))
  else none

/-! ## §2. Whole numbers. -/

/-- The whole number that a text is. -/
def integer? (s : String) : Option Int := do
  let (negative, body) := signed (plainChars s.toList)
  let digits ← withoutUnderscores? body
  if digits.isEmpty || !digits.all Char.isDigit || Config.maxIntegerDigits < digits.length then
    none
  else
    let n : Int := ofDigits 10 (Config.digitValues digits)
    some (if negative then -n else n)

/-! ## §3. Numbers of double precision. -/

/-- The exponent that ends a number: nothing, or a mark and a whole
number. -/
def power? (cs : List Char) : Option Int :=
  match cs with
  | [] => some 0
  | e :: rest =>
    let (negative, digits) := signed rest
    if (e == 'e' || e == 'E') && !digits.isEmpty && digits.all Char.isDigit then
      let n : Int := ofDigits 10 (Config.digitValues digits)
      some (if negative then -n else n)
    else none

/-- A finite number after its sign. -/
def finite? (negative : Bool) (cs : List Char) : Option Binary64 := do
  let whole := cs.takeWhile Char.isDigit
  let afterWhole := cs.drop whole.length
  let (places, rest) :=
    match afterWhole with
    | '.' :: more =>
      let places := more.takeWhile Char.isDigit
      (places, more.drop places.length)
    | _ => ([], afterWhole)
  if whole.isEmpty && places.isEmpty then none
  else
    let power ← power? rest
    let digits := ofDigits 10 (Config.digitValues (whole ++ places))
    some (Binary64.ofDecimal negative digits (power - places.length))

/-- The number of double precision that a text is. -/
def real? (s : String) : Option Binary64 := do
  let cs ← withoutUnderscores? (plainChars s.toList)
  let (negative, body) := signed cs
  let word := String.ofList (body.map Char.toLower)
  if word == "inf" || word == "infinity" then some (.infinite negative)
  else if word == "nan" then some .nan
  else finite? negative body

end Offside.CommandLine
