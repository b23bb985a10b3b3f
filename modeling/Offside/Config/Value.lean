/-
  Offside.Config.Value
  ────────────────────
  The values of a config file, and their texts.

  A value of any type has a text, since a setting that wants a text takes the
  text of any value.  Inside an array or a table a value is shown in a form
  that tells its type as well.  Only integers that are too long and values
  that are nested too deeply have no text.
-/
import Offside.Decimal.Digits
import Offside.Text.Quoted

namespace Offside.Config

open Text

/-! ## §1. Values. -/

/-- A day of the calendar. -/
structure Date where
  year : Nat
  month : Nat
  day : Nat
  deriving Repr, DecidableEq

/-- A time of the day. -/
structure Clock where
  hour : Nat
  minute : Nat
  second : Nat
  micro : Nat
  deriving Repr, DecidableEq

/-- A value of a config file.  A table keeps its entries in the order in
which they were made. -/
inductive Value where
  | text (s : String)
  | integer (n : Int)
  | number (x : Binary64)
  | boolean (b : Bool)
  | date (d : Date)
  | clock (t : Clock)
  /-- A day and a time, with the minutes by which the zone is ahead, if a
  zone is given. -/
  | moment (d : Date) (t : Clock) (zone : Option Int)
  | array (items : List Value)
  | table (entries : List (String × Value))
  deriving Repr, Inhabited

/-- The entries of a table. -/
abbrev Table := List (String × Value)

/-- The value of a key. -/
def Table.get? (t : Table) (key : String) : Option Value :=
  (t.find? fun e => e.1 == key).map (·.2)

/-- The table under a key; anything else under it counts as an empty one. -/
def Table.section (t : Table) (key : String) : Table :=
  match Table.get? t key with
  | some (.table entries) => entries
  | _ => []

/-- Whether a value counts as a yes: it is not zero, not empty and not a
no. -/
def Value.isTrue : Value → Bool
  | .text s => !s.isEmpty
  | .integer n => n != 0
  | .number x => !x.isZero
  | .boolean b => b
  | .array items => !items.isEmpty
  | .table entries => !entries.isEmpty
  | _ => true

/-! ## §2. Texts of dates and times. -/

/-- A number with zeros in front of it up to a width. -/
def padded (width n : Nat) : String :=
  let digits := Nat.toDigits 10 n
  String.ofList (List.replicate (width - digits.length) '0' ++ digits)

/-- The text of a day. -/
def Date.text (d : Date) : String :=
  s!"{padded 4 d.year}-{padded 2 d.month}-{padded 2 d.day}"

/-- The text of a time; parts of a second are shown if there are any. -/
def Clock.text (t : Clock) : String :=
  s!"{padded 2 t.hour}:{padded 2 t.minute}:{padded 2 t.second}"
    ++ (if t.micro == 0 then "" else "." ++ padded 6 t.micro)

/-- The text of a zone that is `minutes` ahead. -/
def zoneText (minutes : Int) : String :=
  let size := minutes.natAbs
  (if minutes < 0 then "-" else "+") ++ s!"{padded 2 (size / 60)}:{padded 2 (size % 60)}"

/-- The parts of a time from the hour on, without a second and a part of a
second that are zero. -/
def Clock.parts (t : Clock) : List Nat :=
  if t.micro != 0 then [t.hour, t.minute, t.second, t.micro]
  else if t.second != 0 then [t.hour, t.minute, t.second]
  else [t.hour, t.minute]

/-- Numbers with commas between them. -/
def listed (ns : List Nat) : String := ", ".intercalate (ns.map toString)

/-- The form of a zone that tells its type: a span of seconds that is not
negative, after whole days. -/
def zoneForm (minutes : Int) : String :=
  if minutes == 0 then "datetime.timezone.utc"
  else
    let span :=
      if minutes < 0 then s!"days=-1, seconds={86400 + 60 * minutes}"
      else s!"seconds={60 * minutes}"
    s!"datetime.timezone(datetime.timedelta({span}))"

/-! ## §3. Texts of values. -/

/-- The longest integer that is read or written, in decimal digits. -/
def maxIntegerDigits : Nat := 4300

/-- Why a value has no text. -/
inductive TextError where
  /-- An integer has too many digits. -/
  | integerTooLong
  /-- The value is nested too deeply. -/
  | tooDeep
  deriving Repr, DecidableEq

/-- The wording of such a reason. -/
def TextError.message : TextError → String
  | .integerTooLong =>
    s!"Exceeds the limit ({maxIntegerDigits} digits) for integer string conversion; "
      ++ "use sys.set_int_max_str_digits() to increase the limit"
  | .tooDeep => "maximum recursion depth exceeded while getting the repr of an object"

/-- The text of an integer. -/
def integerText (n : Int) : Except TextError String :=
  if Nat.pow 10 maxIntegerDigits ≤ n.natAbs then .error .integerTooLong else .ok (toString n)

/-- The form of a value that holds no other values. -/
def Value.scalarForm : Value → Except TextError String
  | .text s => .ok (quotedString s)
  | .integer n => integerText n
  | .number x => .ok x.shortest
  | .boolean b => .ok (if b then "True" else "False")
  | .date d => .ok s!"datetime.date({listed [d.year, d.month, d.day]})"
  | .clock t => .ok s!"datetime.time({listed t.parts})"
  | .moment d t zone =>
    let parts := listed ([d.year, d.month, d.day] ++ t.parts)
    let suffix :=
      match zone with
      | none => ""
      | some minutes => ", tzinfo=" ++ zoneForm minutes
    .ok s!"datetime.datetime({parts}{suffix})"
  | .array _ | .table _ => .ok ""

mutual

/-- The form of a value that tells its type.  `room` is the number of levels
that may still be entered. -/
def Value.form : Value → Nat → Except TextError String
  | _, 0 => .error .tooDeep
  | .array items, room + 1 => do
    return "[" ++ ", ".intercalate (← forms items room) ++ "]"
  | .table entries, room + 1 => do
    return "\x7b" ++ ", ".intercalate (← entryForms entries room) ++ "\x7d"
  | v, _ + 1 => v.scalarForm

/-- The forms of values. -/
def forms : List Value → Nat → Except TextError (List String)
  | [], _ => .ok []
  | v :: vs, room => do
    let form ← v.form room
    return form :: (← forms vs room)

/-- The forms of the entries of a table. -/
def entryForms : List (String × Value) → Nat → Except TextError (List String)
  | [], _ => .ok []
  | (key, v) :: rest, room => do
    let form ← v.form room
    return (quotedString key ++ ": " ++ form) :: (← entryForms rest room)

end

/-- How many levels deep the text of a value goes at most. -/
def maxTextDepth : Nat := 992

/-- **The text of a value.** -/
def Value.asText : Value → Except TextError String
  | .text s => .ok s
  | .date d => .ok d.text
  | .clock t => .ok t.text
  | .moment d t zone =>
    .ok (d.text ++ " " ++ t.text ++ (match zone with | none => "" | some z => zoneText z))
  | v => v.form maxTextDepth

end Offside.Config
