/-
  Offside.Config.Scalar
  ─────────────────────
  Reading the values of a config file that hold no other values: strings,
  numbers, dates and times.

  A reader takes the characters still to be read and gives back what it read
  with the rest.
-/
import Offside.Config.Value
import Offside.Text.Blank
import Offside.Text.Digit

namespace Offside.Config

open Text

/-! ## §1. Errors. -/

/-- Why a config file cannot be read. -/
inductive Error where
  /-- The file does not follow the config language. -/
  | malformed
  /-- An integer is too long to be read. -/
  | integerTooLong (digits : Nat)
  /-- Values are nested too deeply. -/
  | tooDeep
  deriving Repr, DecidableEq

/-- The wording of such a reason. -/
def Error.message : Error → String
  | .malformed => "malformed document"
  | .integerTooLong digits =>
    s!"Exceeds the limit ({maxIntegerDigits} digits) for integer string conversion: "
      ++ s!"value has {digits} digits; "
      ++ "use sys.set_int_max_str_digits() to increase the limit"
  | .tooDeep => "maximum recursion depth exceeded"

/-- The result of a reader: what was read and the rest. -/
abbrev Read (α : Type) := Except Error (α × List Char)

/-! ## §2. Strings. -/

/-- Control characters, which no string and no comment may hold. -/
def isControl (c : Char) : Bool := (c.toNat < 32 && c != '\t') || c.toNat == 127

/-- Whether a character may stand in a string over several lines. -/
def isBlockChar (c : Char) : Bool := c == '\n' || !isControl c

/-- The number that hexadecimal digits write. -/
def hexValue? (c : Char) : Option Nat :=
  if '0' ≤ c && c ≤ '9' then some (c.toNat - 48)
  else if 'a' ≤ c && c ≤ 'f' then some (c.toNat - 87)
  else if 'A' ≤ c && c ≤ 'F' then some (c.toNat - 55)
  else none

/-- The character that `width` hexadecimal digits name. -/
def hexChar (width : Nat) (cs : List Char) : Read Char :=
  match (cs.take width).mapM hexValue? with
  | none => .error .malformed
  | some digits =>
    let n := ofDigits 16 digits
    if digits.length == width && n.isValidChar then .ok (Char.ofNat n, cs.drop width)
    else .error .malformed

/-- Whether a character is a gap or a newline. -/
def isLayout (c : Char) : Bool := isGap c || c == '\n'

/-- What a backslash and the characters after it stand for.  In a string over
several lines a backslash at the end of a line takes all layout up to the next
character. -/
def escape (block : Bool) (cs : List Char) : Read (List Char) :=
  match cs with
  | 'b' :: rest => .ok (['\x08'], rest)
  | 't' :: rest => .ok (['\t'], rest)
  | 'n' :: rest => .ok (['\n'], rest)
  | 'f' :: rest => .ok (['\x0c'], rest)
  | 'r' :: rest => .ok (['\r'], rest)
  | '"' :: rest => .ok (['"'], rest)
  | '\\' :: rest => .ok (['\\'], rest)
  | 'u' :: rest => (hexChar 4 rest).map fun p => ([p.1], p.2)
  | 'U' :: rest => (hexChar 8 rest).map fun p => ([p.1], p.2)
  | '\n' :: rest => if block then .ok ([], rest.dropWhile isLayout) else .error .malformed
  | c :: rest =>
    if block && isGap c then
      match rest.dropWhile isGap with
      | [] => .ok ([], [])
      | '\n' :: more => .ok ([], more.dropWhile isLayout)
      | _ => .error .malformed
    else .error .malformed
  | [] => .error .malformed

/-- The inside of a string with escapes, up to its end, after the characters
in `done`, which holds the latest first. -/
def basicBody (block : Bool) : Nat → List Char → List Char → Read (List Char)
  | 0, _, _ => .error .malformed
  | fuel + 1, done, cs =>
    match cs with
    | [] => .error .malformed
    | '"' :: rest =>
      if block then
        match rest with
        | '"' :: '"' :: more => .ok (done.reverse, more)
        | _ => basicBody block fuel ('"' :: done) rest
      else .ok (done.reverse, rest)
    | '\\' :: rest =>
      match escape block rest with
      | .error e => .error e
      | .ok (piece, more) => basicBody block fuel (piece.reverse ++ done) more
    | c :: rest =>
      if isControl c && !(block && c == '\n') then .error .malformed
      else basicBody block fuel (c :: done) rest

/-- A string with escapes on one line, from after its mark. -/
def basicString (cs : List Char) : Read (List Char) :=
  basicBody false (cs.length + 1) [] cs

/-- A string without escapes on one line, from after its mark. -/
def literalString (cs : List Char) : Read (List Char) :=
  let body := cs.takeWhile (· != '\'')
  match cs.drop body.length with
  | _ :: rest => if body.any isControl then .error .malformed else .ok (body, rest)
  | [] => .error .malformed

/-- The inside of a string without escapes, up to three marks. -/
def literalBody : List Char → List Char → Read (List Char)
  | _, [] => .error .malformed
  | done, '\'' :: '\'' :: '\'' :: rest => .ok (done.reverse, rest)
  | done, c :: rest =>
    if isBlockChar c then literalBody (c :: done) rest else .error .malformed

/-- Up to two marks right after a string over several lines belong to it. -/
def extraMarks (mark : Char) (body rest : List Char) : List Char × List Char :=
  let extra := (rest.take 2).takeWhile (· == mark)
  (body ++ extra, rest.drop extra.length)

/-- The text without a newline at its start. -/
def dropNewline : List Char → List Char
  | '\n' :: rest => rest
  | cs => cs

/-- A string over several lines, from after its three marks. -/
def blockString (mark : Char) (cs : List Char) : Read (List Char) :=
  let start := dropNewline cs
  let read :=
    if mark == '"' then basicBody true (start.length + 1) [] start
    else literalBody [] start
  read.map fun p => extraMarks mark p.1 p.2

/-! ## §3. Numbers. -/

/-- A run of digits that may have single underscores between them, without
the underscores. -/
def digitRun (p : Char → Bool) : List Char → List Char × List Char
  | [] => ([], [])
  | c :: cs =>
    if p c then
      let (more, rest) := afterDigit cs
      (c :: more, rest)
    else ([], c :: cs)
where
  /-- What may follow a digit of the run. -/
  afterDigit : List Char → List Char × List Char
    | '_' :: c :: cs =>
      if p c then
        let (more, rest) := afterDigit cs
        (c :: more, rest)
      else ([], '_' :: c :: cs)
    | c :: cs =>
      if p c then
        let (more, rest) := afterDigit cs
        (c :: more, rest)
      else ([], c :: cs)
    | [] => ([], [])

/-- The values of digits that were recognised before. -/
def digitValues (cs : List Char) : List Nat := cs.filterMap hexValue?

/-- A decimal digit of the config language. -/
def isDecimal (c : Char) : Bool := '0' ≤ c && c ≤ '9'

/-- Digits of a base after its mark, as an integer. -/
def based? (base : Nat) (cs : List Char) : Option (Value × List Char) :=
  let isOfBase (c : Char) : Bool :=
    match hexValue? c with
    | some v => v < base
    | none => false
  match digitRun isOfBase cs with
  | ([], _) => none
  | (digits, rest) => some (.integer (ofDigits base (digitValues digits)), rest)

/-- The digits after a decimal point, if there are any. -/
def fraction (cs : List Char) : List Char × List Char :=
  match cs with
  | '.' :: rest =>
    match digitRun isDecimal rest with
    | ([], _) => ([], cs)
    | read => read
  | _ => ([], cs)

/-- The exponent of a number, if it has one. -/
def exponent (cs : List Char) : Option Int × List Char :=
  match cs with
  | e :: rest =>
    if e == 'e' || e == 'E' then
      let (negative, start) :=
        match rest with
        | '-' :: more => (true, more)
        | '+' :: more => (false, more)
        | _ => (false, rest)
      match digitRun isDecimal start with
      | ([], _) => (none, cs)
      | (digits, after) =>
        let n : Int := ofDigits 10 (digitValues digits)
        (some (if negative then -n else n), after)
    else (none, cs)
  | [] => (none, cs)

/-- The whole part of a decimal number: a zero, or digits that do not start
with one. -/
def wholePart (cs : List Char) : List Char × List Char :=
  match cs with
  | '0' :: rest => (['0'], rest)
  | _ => digitRun isDecimal cs

/-- A decimal number after its sign. -/
def decimal? (negative : Bool) (cs : List Char) : Option (Read Value) :=
  match wholePart cs with
  | ([], _) => none
  | (whole, afterWhole) =>
    let (places, afterPlaces) := fraction afterWhole
    let (power, rest) := exponent afterPlaces
    some <|
      if places.isEmpty && power.isNone then
        if maxIntegerDigits < whole.length then .error (.integerTooLong whole.length)
        else
          let n : Int := ofDigits 10 (digitValues whole)
          .ok (.integer (if negative then -n else n), rest)
      else
        let digits := ofDigits 10 (digitValues (whole ++ places))
        .ok (.number (Binary64.ofDecimal negative digits (power.getD 0 - places.length)), rest)

/-- An infinity or a number that is none, after its sign. -/
def special? (negative : Bool) (cs : List Char) : Option (Read Value) :=
  match cs with
  | 'i' :: 'n' :: 'f' :: rest => some (.ok (.number (.infinite negative), rest))
  | 'n' :: 'a' :: 'n' :: rest => some (.ok (.number .nan, rest))
  | _ => none

/-- A number. -/
def number? (cs : List Char) : Option (Read Value) :=
  let marked :=
    match cs with
    | '0' :: 'x' :: rest => based? 16 rest
    | '0' :: 'o' :: rest => based? 8 rest
    | '0' :: 'b' :: rest => based? 2 rest
    | _ => none
  match marked with
  | some read => some (.ok read)
  | none =>
    let (negative, start) :=
      match cs with
      | '-' :: rest => (true, rest)
      | '+' :: rest => (false, rest)
      | _ => (false, cs)
    (decimal? negative start).orElse fun _ => special? negative start

/-! ## §4. Dates and times. -/

/-- A number of exactly `width` decimal digits. -/
def fixedNumber? (width : Nat) (cs : List Char) : Option (Nat × List Char) :=
  let digits := cs.take width
  if digits.length == width && digits.all isDecimal then
    some (ofDigits 10 (digitValues digits), cs.drop width)
  else none

/-- A number of two digits between bounds. -/
def between? (low high : Nat) (cs : List Char) : Option (Nat × List Char) := do
  let (n, rest) ← fixedNumber? 2 cs
  if low ≤ n && n ≤ high then some (n, rest) else none

/-- The rest after a character. -/
def expect? (c : Char) (cs : List Char) : Option (List Char) :=
  match cs with
  | d :: rest => if c == d then some rest else none
  | [] => none

/-- A day as it is written, whether or not the calendar has it. -/
def date? (cs : List Char) : Option (Date × List Char) := do
  let (year, cs) ← fixedNumber? 4 cs
  let (month, cs) ← between? 1 12 (← expect? '-' cs)
  let (day, cs) ← between? 1 31 (← expect? '-' cs)
  return (⟨year, month, day⟩, cs)

/-- The parts of a second after a point; from the seventh digit on they are
dropped. -/
def micros (cs : List Char) : Nat × List Char :=
  match cs with
  | '.' :: rest =>
    let digits := rest.takeWhile isDecimal
    if digits.isEmpty then (0, cs)
    else
      let six := (digits ++ List.replicate 6 '0').take 6
      (ofDigits 10 (digitValues six), rest.drop digits.length)
  | _ => (0, cs)

/-- A time of the day. -/
def clock? (cs : List Char) : Option (Clock × List Char) := do
  let (hour, cs) ← between? 0 23 cs
  let (minute, cs) ← between? 0 59 (← expect? ':' cs)
  let (second, cs) ← between? 0 59 (← expect? ':' cs)
  let (micro, cs) := micros cs
  return (⟨hour, minute, second, micro⟩, cs)

/-- A zone after its sign, in minutes. -/
def zoneOffset? (cs : List Char) : Option (Int × List Char) := do
  let (hour, cs) ← between? 0 23 cs
  let (minute, cs) ← between? 0 59 (← expect? ':' cs)
  return ((60 * hour + minute : Nat), cs)

/-- The zone after a time, if there is one. -/
def zone (cs : List Char) : Option Int × List Char :=
  match cs with
  | 'Z' :: rest | 'z' :: rest => (some 0, rest)
  | '+' :: rest =>
    match zoneOffset? rest with
    | some (minutes, after) => (some minutes, after)
    | none => (none, cs)
  | '-' :: rest =>
    match zoneOffset? rest with
    | some (minutes, after) => (some (-minutes), after)
    | none => (none, cs)
  | _ => (none, cs)

/-- How many days a month has. -/
def daysIn (year month : Nat) : Nat :=
  if month == 2 then
    if (year % 4 == 0 && year % 100 != 0) || year % 400 == 0 then 29 else 28
  else if month == 4 || month == 6 || month == 9 || month == 11 then 30
  else 31

/-- Whether the calendar has a day. -/
def Date.isReal (d : Date) : Bool := 1 ≤ d.year && d.day ≤ daysIn d.year d.month

/-- The time after a date, if there is one. -/
def afterDate? (cs : List Char) : Option (Clock × List Char) :=
  match cs with
  | c :: rest => if c == 'T' || c == 't' || c == ' ' then clock? rest else none
  | [] => none

/-- A date, a time, or both. -/
def temporal? (cs : List Char) : Option (Read Value) :=
  match date? cs with
  | some (day, rest) =>
    some <|
      if !day.isReal then .error .malformed
      else
        match afterDate? rest with
        | none => .ok (.date day, rest)
        | some (time, rest) =>
          let (minutes, rest) := zone rest
          .ok (.moment day time minutes, rest)
  | none => (clock? cs).map fun p => .ok (.clock p.1, p.2)

end Offside.Config
