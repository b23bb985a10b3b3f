/-
  Offside.Tool.Print
  ──────────────────
  Backslash escapes, and the programs `echo` and `printf`.

  A format is written again for as long as words are left.  A directive takes
  the next word; when there is none, it takes an empty one.  There are two
  dialects: the one of a program of its own, and the one that is built into
  a shell.
-/
import Offside.Tool.Numeral
import Offside.Tool.Quoting
import Offside.Tool.Usage

namespace Offside.Tool

/-! ## §1. Escapes. -/

/-- The byte that a letter after a backslash stands for. -/
def escapeByte? : Char → Option Char
  | '\\' => some '\\'
  | 'a' => some '\x07'
  | 'b' => some '\x08'
  | 'e' => some '\x1b'
  | 'f' => some '\x0c'
  | 'n' => some '\n'
  | 'r' => some '\r'
  | 't' => some '\t'
  | 'v' => some '\x0b'
  | _ => none

/-- Which escapes are understood. -/
structure EscapeStyle where
  /-- A zero may stand in front of three octal digits. -/
  widened : Bool := false
  /-- Bytes may be written in hexadecimal digits. -/
  hex : Bool := false
  /-- A double quote may be escaped. -/
  quotes : Bool := false
  /-- Characters may be written by their numbers.  Digits must not be missing,
  and what follows a backslash without a meaning has none either. -/
  strict : Bool := false

/-- The byte of a number. -/
def byteOf (n : Nat) : Char := Char.ofNat (n % 256)

/-- How many digits the number of a character has after a letter. -/
def universalSize (c : Char) : Nat := if c == 'u' then 4 else if c == 'U' then 8 else 0

/-- The number that the first hexadecimal digits write. -/
def hexValue (count : Nat) (cs : Octets) : Nat :=
  digitsValue 16 ((cs.take count).filterMap hexDigit?)

/-- The bytes of the character with a number. -/
def universalOctets (n : Nat) : Octets :=
  if n < 0x110000 then octets (String.singleton (Char.ofNat n))
  else '\\' :: 'U' :: ({ precision := some 8 : Slot }.natural 16 true n)

/-- What is wrong with the text after a backslash, if anything. -/
def escapeFault? (o : EscapeStyle) (cs : Octets) : Option String :=
  match cs with
  | c :: rest =>
    let size := if c == 'x' then 1 else universalSize c
    let digits := (rest.take size).takeWhile fun c => (hexDigit? c).isSome
    let n := hexValue size rest
    if !o.strict || size == 0 then none
    else if digits.length < size then some "missing hexadecimal number in escape"
    else if c == 'x' then none
    else if (n < 0xa0 && n != 0x24 && n != 0x40 && n != 0x60) || (0xd800 ≤ n && n < 0xe000) then
      let shown := String.ofList ({ precision := some size : Slot }.natural 16 false n)
      some s!"invalid universal character name \\{c}{shown}"
    else none
  | [] => none

/-- The text after a backslash: what it stands for, and how many characters
that takes. -/
def escapeAt (o : EscapeStyle) (cs : Octets) : Octets × Nat :=
  let skipped := if o.widened && cs.head? == some '0' then 1 else 0
  let run := ((cs.drop skipped).take 3).takeWhile fun c => (octalDigit? c).isSome
  if 0 < skipped + run.length then
    ([byteOf (digitsValue 8 (run.filterMap octalDigit?))], skipped + run.length)
  else
    match cs with
    | [] => (['\\'], 0)
    | c :: rest =>
      let hex := (rest.take 2).takeWhile fun c => (hexDigit? c).isSome
      let size := universalSize c
      if o.hex && c == 'x' && !hex.isEmpty then
        ([byteOf (digitsValue 16 (hex.filterMap hexDigit?))], 1 + hex.length)
      else if o.quotes && c == '"' then (['"'], 1)
      else if o.strict && 0 < size then (universalOctets (hexValue size rest), 1 + size)
      else
        match escapeByte? c with
        | some b => ([b], 1)
        | none => if o.strict then (['\\', c], 1) else (['\\'], 0)

/-- Why a text is not written to its end. -/
inductive Halt where
  /-- An escape says so. -/
  | asked
  | fault (message : String)

/-- A text with its escapes resolved, and why it ends early, if it does. -/
def unescape (o : EscapeStyle) (cs : Octets) : Octets × Option Halt := go [] cs
where
  /-- Go on, with what was resolved kept in reverse. -/
  go (done : Octets) : Octets → Octets × Option Halt
    | [] => (done.reverse, none)
    | '\\' :: 'c' :: _ => (done.reverse, some .asked)
    | '\\' :: rest =>
      match escapeFault? o rest with
      | some message => (done.reverse, some (.fault message))
      | none => go ((escapeAt o rest).1.reverse ++ done) (rest.drop (escapeAt o rest).2)
    | c :: rest => go (c :: done) rest
  termination_by cs => cs.length
  decreasing_by all_goals simp only [List.length_cons, List.length_drop]; omega

/-! ## §2. Writing words. -/

/-- Words with blanks between them. -/
def spaced (words : List String) : Octets := (" ".intercalate words).toList

/-- Write words as a shell does it: with escapes resolved. -/
def echoResolved (words : List String) : Octets :=
  let write (words : List String) (stop : Octets) : Octets :=
    let (cs, halt) := unescape { widened := true } (spaced words)
    if halt.isSome then cs else cs ++ stop
  match words with
  | "-n" :: words => write words []
  | words => write words ['\n']

/-- Whether a word is an option of `echo`. -/
def isEchoOption (w : String) : Bool :=
  match w.toList with
  | '-' :: c :: rest => (c :: rest).all fun c => c == 'n' || c == 'e' || c == 'E'
  | _ => false

/-- Write words; a newline at the end and escapes are a matter of options. -/
def echo (c : Call) : Finish :=
  let options := c.words.takeWhile isEchoOption
  let letters := options.flatMap String.toList
  let words := spaced (c.words.drop options.length)
  let resolve := (letters.filter fun c => c == 'e' || c == 'E').getLast? == some 'e'
  let (cs, halt) :=
    if resolve then unescape { widened := true, hex := true } words
    else (words, none)
  { writes := [.out (if halt.isSome || letters.contains 'n' then cs else cs ++ ['\n'])] }

/-! ## §3. Dialects. -/

/-- How `printf` reads its format and how it complains. -/
structure PrintDialect where
  /-- The escapes of a format. -/
  escapes : EscapeStyle
  /-- The escapes of a word that a directive resolves. -/
  wordEscapes : EscapeStyle
  /-- An escape may end a format, and then all is well. -/
  stops : Bool
  /-- Sizes may stand in front of a directive. -/
  sizes : Bool
  /-- The flags of a directive. -/
  flags : List Char
  /-- The directives that may follow flags. -/
  accepts : Octets → Char → Bool
  /-- The real numbers that are written. -/
  reals : RealFormat
  /-- A quote in front of a character stands for the number of the character,
  and not only of its first byte; what follows is warned of. -/
  wideQuotes : Bool
  /-- A word as a complaint names it. -/
  shown : String → String
  /-- Of two complaints about a number, that about its size counts. -/
  sizeFirst : Bool
  notNumber : String
  notWhole : String
  badDirective : String
  /-- The exit code after a format that cannot be followed. -/
  badCode : Int
  /-- What is said of a percent sign without a directive. -/
  noDirective : Octets → String

/-- The directives that all dialects have. -/
def directives : List Char := "aAcdeEfFgGiosuxX".toList

/-- The dialect that is built into a shell. -/
def PrintDialect.builtin : PrintDialect where
  escapes := {}
  wordEscapes := { widened := true }
  stops := false
  sizes := false
  flags := "#-+ 0".toList
  accepts _ c := c == 'b' || directives.contains c
  reals := .double
  wideQuotes := false
  shown := id
  sizeFirst := false
  notNumber := "expected numeric value"
  notWhole := "not completely converted"
  badDirective := "invalid directive"
  badCode := 2
  noDirective _ := "missing format character"

/-- The directives that the program has: some do not go with some flags, and
two only stand alone. -/
def programAccepts (text : Octets) (c : Char) : Bool :=
  let refused (flag : Char) (those : String) : Bool := text.contains flag && those.toList.contains c
  if c == 'b' || c == 'q' then text.length == 1
  else directives.contains c
    && !(refused '\'' "aAceEosxX" || refused 'I' "aAceEosxX" || refused '#' "cdisu"
      || refused '.' "c" || ((text.takeWhile fun c => !('1' ≤ c && c ≤ '9') && c != '.').contains '0'
        && (c == 'c' || c == 's')))

/-- The dialect of the program. -/
def PrintDialect.program : PrintDialect where
  escapes := { hex := true, quotes := true, strict := true }
  wordEscapes := { widened := true, hex := true, quotes := true, strict := true }
  stops := true
  sizes := true
  flags := "#-+ 0'I".toList
  accepts := programAccepts
  reals := .extended
  wideQuotes := true
  shown := curly
  sizeFirst := true
  notNumber := "expected a numeric value"
  notWhole := "value not completely converted"
  badDirective := "invalid conversion specification"
  badCode := 1
  noDirective text := s!"%{String.ofList text}: invalid conversion specification"

/-! ## §4. Words as numbers. -/

/-- What one pass over a format has done so far: its output in reverse, the
words that are left, and the complaints. -/
structure Pass where
  output : Octets := []
  words : List String
  complaints : List String := []
  /-- Whether one of the complaints was more than a warning. -/
  failed : Bool := false
  used : Bool := false
  /-- The exit code, if the format was not followed to its end. -/
  ended : Option Int := none

/-- Write bytes. -/
def Pass.write (p : Pass) (cs : Octets) : Pass := { p with output := cs.reverse ++ p.output }

/-- Say something that is no failure. -/
def Pass.warn (p : Pass) (message : String) : Pass :=
  { p with complaints := p.complaints ++ [message] }

/-- Complain. -/
def Pass.complain (p : Pass) (message : String) : Pass := { p.warn message with failed := true }

/-- The exit code so far. -/
def Pass.code (p : Pass) : Int := p.ended.getD (if p.failed then 1 else 0)

/-- Stop here. -/
def Pass.halt (d : PrintDialect) (p : Pass) : Halt → Pass
  | .asked => { p with ended := some (if d.stops then 0 else p.code) }
  | .fault message => { p.complain message with ended := some d.badCode }

/-- The next word, if there is one. -/
def Pass.next (p : Pass) : Option String × Pass :=
  (p.words.head?, { p with words := p.words.drop 1, used := true })

/-- Complain of a word that is not quite a number: `rest` follows the number
in it, if there is one. -/
def Pass.check (d : PrintDialect) (p : Pass) (word : String) (rest : Option Octets)
    (tooLarge : Bool) : Pass :=
  let size := if tooLarge then some "Numerical result out of range" else none
  let form :=
    match rest with
    | none => if word.isEmpty then none else some d.notNumber
    | some rest => if rest.isEmpty then none else some d.notWhole
  match if d.sizeFirst then size.or form else form.or size with
  | some reason => p.complain s!"{d.shown word}: {reason}"
  | none => p

/-- The number of the character after a quote, and what follows it. -/
def quotedNumber? (d : PrintDialect) (word : String) : Option (Nat × Octets) :=
  match word.toList with
  | q :: rest =>
    if q != '\'' && q != '"' then none
    else if !d.wideQuotes then some ((rest.headD '\x00').toNat, [])
    else
      match glyphsUpTo 1 rest with
      | g :: _ =>
        let n := match g with | .char c => c.toNat | .byte b => b.toNat
        some (n, rest.drop g.octets.length)
      | [] => none
  | [] => none

/-- Warn of what follows a character after a quote. -/
def Pass.warnOf (p : Pass) (rest : Octets) : Pass :=
  if rest.isEmpty then p
  else p.warn (s!"warning: {String.ofList rest}: character(s) following character constant "
    ++ "have been ignored")

/-- The integer of the next word, kept between bounds. -/
def Pass.integer (d : PrintDialect) (p : Pass) (least most : Int) : Int × Pass :=
  match p.next with
  | (none, p) => (0, p)
  | (some word, p) =>
    match quotedNumber? d word with
    | some (n, rest) => (n, p.warnOf rest)
    | none =>
      let found := integerAt? word.toList
      let n := (found.map (·.1)).getD 0
      let p := p.check d word (found.map (·.2)) (n < least || most < n)
      (if n < least then least else if most < n then most else n, p)

/-- The real number of the next word. -/
def Pass.real (d : PrintDialect) (p : Pass) : Numeral × Pass :=
  match p.next with
  | (none, p) => (.exact false 0, p)
  | (some word, p) =>
    match quotedNumber? d word with
    | some (n, rest) => (.exact false (n : Int), p.warnOf rest)
    | none =>
      let found : Option (Numeral × Octets) := realAt? word.toList
      let number : Numeral := (found.map (·.1)).getD (.exact false 0)
      let (x, tooLarge) := number.rounded d.reals
      (x, p.check d word (found.map (·.2)) tooLarge)

/-! ## §5. Directives. -/

/-- The largest number of a width or a precision. -/
def maxCount : Int := Int.pow 2 31 - 1

/-- A number of the format: written out, or taken from the next word. -/
def Pass.count (d : PrintDialect) (p : Pass) (title : String) (least : Int) (cs : Octets) :
    Int × Pass × Octets :=
  match cs with
  | '*' :: rest =>
    let word := p.words.headD ""
    let (n, p) := p.integer d leastWord mostWord
    if d.sizes && (n < least || maxCount < n) then
      (n, p.halt d (.fault s!"invalid {title}: {d.shown word}"), rest)
    else (n, p, rest)
  | _ =>
    match naturalAt? 10 digit? cs with
    | some (n, rest) => (n, p, rest)
    | none => (0, p, cs)

/-- A slot that is not wider than anything that is written. -/
def maxWidth : Nat := 2000000

/-- The flags, the width and the precision after a percent sign, and the
rest. -/
def Pass.slot (d : PrintDialect) (p : Pass) (cs : Octets) : Slot × Pass × Octets :=
  let flags := cs.takeWhile d.flags.contains
  let (width, p, rest) := p.count d "field width" (-maxCount - 1) (cs.drop flags.length)
  let (precision, p, rest) :=
    match p.ended, rest with
    | none, '.' :: rest =>
      let (n, p, rest) := p.count d "precision" leastWord rest
      (if n < 0 then none else some (min n.toNat maxWidth), p, rest)
    | _, rest => (none, p, rest)
  let rest := if d.sizes then rest.dropWhile fun c => "hlLjzt".toList.contains c else rest
  ({ left := flags.contains '-' || width < 0, zeros := flags.contains '0'
     plus := flags.contains '+', blank := flags.contains ' ', marked := flags.contains '#'
     width := min width.natAbs maxWidth, precision }, p, rest)

/-- Bytes cut to the precision of a slot and filled up to its width. -/
def Slot.text (f : Slot) (cs : Octets) : Octets :=
  f.fill (match f.precision with | some n => cs.take n | none => cs)

/-- Carry out a directive. -/
def Pass.directive (d : PrintDialect) (p : Pass) (f : Slot) (c : Char) : Pass :=
  let unsigned (base : Nat) : Pass :=
    let (n, p) := p.integer d (-Int.pow 2 64) (Int.pow 2 64 - 1)
    p.write (f.natural base (c == 'X') (n % Int.pow 2 64).toNat)
  let real (style : RealStyle) : Pass :=
    let (x, p) := p.real d
    p.write (f.real d.reals style (c.isUpper) x)
  match c with
  | 'd' | 'i' =>
    let (n, p) := p.integer d leastWord mostWord
    p.write (f.decimal n)
  | 'u' => unsigned 10
  | 'o' => unsigned 8
  | 'x' | 'X' => unsigned 16
  | 'f' | 'F' => real .fixed
  | 'e' | 'E' => real .power
  | 'g' | 'G' => real .shorter
  | 'a' | 'A' => real .binary
  | c =>
    let (word, p) := p.next
    let cs := (word.getD "").toList
    match c with
    | 'b' =>
      let (cs, halt) := unescape d.wordEscapes cs
      let p := p.write (f.text cs)
      match halt with
      | some h => p.halt d h
      | none => p
    | 'c' => p.write (f.fill [cs.headD '\x00'])
    | 'q' => match word with | some w => p.write (named w).toList | none => p
    | _ => p.write (f.text cs)

/-! ## §6. Passes. -/

/-- What follows the flags, the width and the precision, cut down to what can
follow them. -/
def Pass.slotWithin (d : PrintDialect) (p : Pass) (cs : Octets) : Slot × Pass × Octets :=
  let (f, p, rest) := p.slot d cs
  (f, p, cs.drop (cs.length - rest.length))

/-- The rest is never longer than the text. -/
theorem Pass.slotWithin_length_le (d : PrintDialect) (p : Pass) (cs : Octets) :
    (p.slotWithin d cs).2.2.length ≤ cs.length := by
  simp only [slotWithin, List.length_drop]
  omega

/-- One pass over a format. -/
def pass (d : PrintDialect) (p : Pass) (format : Octets) : Pass :=
  match format with
  | [] => p
  | '\\' :: rest =>
    if d.stops && rest.head? == some 'c' then p.halt d .asked
    else
      match escapeFault? d.escapes rest with
      | some message => p.halt d (.fault message)
      | none =>
        pass d (p.write (escapeAt d.escapes rest).1) (rest.drop (escapeAt d.escapes rest).2)
  | '%' :: '%' :: rest => pass d (p.write ['%']) rest
  | '%' :: rest =>
    let q := (p.slotWithin d rest).2.1
    match h : (p.slotWithin d rest).2.2 with
    | [] => if q.ended.isSome then q else q.halt d (.fault (d.noDirective rest))
    | c :: after =>
      have : after.length < rest.length := by
        have := p.slotWithin_length_le d rest
        rw [h, List.length_cons] at this
        omega
      let text := rest.take (rest.length - after.length)
      if q.ended.isSome then q
      else if !d.accepts text c then
        q.halt d (.fault s!"%{String.ofList text}: {d.badDirective}")
      else
        let q := q.directive d (p.slotWithin d rest).1 c
        if q.ended.isSome then q else pass d q after
  | c :: rest => pass d (p.write [c]) rest
termination_by format.length
decreasing_by all_goals simp only [List.length_cons, List.length_drop]; omega

/-- Passes over a format for as long as they use up words. -/
def passes (d : PrintDialect) (format : Octets) : Nat → Pass → Pass
  | 0, p => p
  | n + 1, p =>
    let q := pass d { p with used := false } format
    if q.ended.isNone && q.used && !q.words.isEmpty then passes d format n q else q

/-! ## §7. The program. -/

/-- What a format makes of words: the exit code, the output and the
complaints. -/
def printWords (d : PrintDialect) (format : String) (words : List String) :
    Int × Octets × List String :=
  let p := passes d format.toList (words.length + 1) { words }
  let p :=
    match p.words with
    | word :: _ =>
      if d.sizes && p.ended.isNone && !p.used then
        p.warn s!"warning: ignoring excess arguments, starting with {d.shown word}"
      else p
    | [] => p
  (p.code, p.output.reverse, p.complaints)

/-- **Write words by a format.** -/
def printf (c : Call) : Finish :=
  match (match c.words with | "--" :: words => words | words => words) with
  | [] => c.misused "missing operand"
  | format :: words =>
    let (code, cs, complaints) := printWords .program format words
    { code, writes := complaints.map (fun m => .err (c.complaint m)) ++ [.out cs] }

end Offside.Tool
