/-
  Offside.Tool.Copy
  ─────────────────
  The programs `cat`, which copies files one after the other, and `tee`, which
  copies its input to files.

  On the way of `cat` lines can be numbered, blank lines that follow each other made
  one, and characters that cannot be seen shown.  Numbers and blank lines are
  counted over all files together.
-/
import Offside.Tool.Quoting
import Offside.Tool.Usage

namespace Offside.Tool

/-! ## §1. What is shown. -/

/-- What `cat` does to what it copies. -/
structure CopyStyle where
  /-- Number all lines, or only those that are not blank. -/
  number : Bool := false
  numberFilled : Bool := false
  /-- Show the ends of lines, tabs, and other characters. -/
  ends : Bool := false
  tabs : Bool := false
  hidden : Bool := false
  /-- Make blank lines that follow each other one. -/
  squeeze : Bool := false

/-- Whether nothing is done. -/
def CopyStyle.isPlain (o : CopyStyle) : Bool :=
  !(o.number || o.numberFilled || o.ends || o.tabs || o.hidden || o.squeeze)

/-- A byte below 128 as it is shown. -/
def caret (n : Nat) : Octets :=
  if n < 32 then ['^', Char.ofNat (n + 64)]
  else if n == 127 then ['^', '?']
  else [Char.ofNat n]

/-- A byte as it is shown when all characters are. -/
def shownByte (c : Char) : Octets :=
  if c.toNat < 128 then caret c.toNat else 'M' :: '-' :: caret (c.toNat - 128)

/-- A byte inside a line. -/
def CopyStyle.byte (o : CopyStyle) (c : Char) : Octets :=
  if c == '\t' then (if o.tabs then caret 9 else [c])
  else if o.hidden then shownByte c
  else [c]

/-- A line without its newline.  A carriage return at its end is shown
together with the end. -/
def CopyStyle.line (o : CopyStyle) (ended : Bool) (cs : Octets) : Octets :=
  if o.ends && ended && !o.hidden && cs.getLast? == some '\r' then
    cs.dropLast.flatMap o.byte ++ caret 13
  else cs.flatMap o.byte

/-! ## §2. Lines. -/

/-- A number in front of a line. -/
def lineNumber (n : Nat) : Octets :=
  let digits := Nat.toDigits 10 n
  List.replicate (6 - digits.length) ' ' ++ digits ++ ['\t']

/-- How far `cat` has come: the last number, whether the last line was blank,
and what was copied, line by line, the latest first. -/
structure Copied where
  count : Nat := 0
  blank : Bool := false
  done : List Octets := []

/-- Copy one line. -/
def CopyStyle.add (o : CopyStyle) (s : Copied) (line : Octets) : Copied :=
  let ended := line.getLast? == some '\n'
  let body := if ended then line.dropLast else line
  let blank := body.isEmpty
  if o.squeeze && blank && s.blank then s
  else
    let numbered := (o.number || o.numberFilled) && !(blank && o.numberFilled)
    let count := if numbered then s.count + 1 else s.count
    let mark := if numbered then lineNumber count else []
    let stop := if ended then (if o.ends then ['$', '\n'] else ['\n']) else []
    ⟨count, blank, (mark ++ o.line ended body ++ stop) :: s.done⟩

/-- Bytes as they are copied. -/
def CopyStyle.apply (o : CopyStyle) (cs : Octets) : Octets :=
  if o.isPlain then cs
  else ((splitLines cs).foldl o.add {}).done.reverse.flatten

/-! ## §3. The program. -/

/-- The options of `cat`. -/
def copyFlags : List Flag :=
  [{ letters := ['b'], names := ["number-nonblank"] }, { letters := ['n'], names := ["number"] },
   { letters := ['s'], names := ["squeeze-blank"] },
   { letters := ['v'], names := ["show-nonprinting"] },
   { letters := ['E'], names := ["show-ends"] }, { letters := ['T'], names := ["show-tabs"] },
   { letters := ['A'], names := ["show-all"] }, { letters := ['e'] }, { letters := ['t'] },
   { letters := ['u'] }]

/-- What the options of `cat` ask for. -/
def copyStyle (u : Usage) : CopyStyle :=
  let any (keys : List String) : Bool := keys.any u.has
  { number := u.has "n", numberFilled := u.has "b", squeeze := u.has "s"
    ends := any ["E", "A", "e"], tabs := any ["T", "A", "t"]
    hidden := any ["v", "A", "e", "t"] }

/-- **Copy files**, or the input if there are none. -/
def cat (c : Call) : Finish :=
  c.usage copyFlags false fun u =>
    let words := if u.operands.isEmpty then ["-"] else u.operands
    let (sources, left) := c.sources words
    let style := copyStyle u
    let complaint (word : String) (e : FileError) : Write :=
      .err (c.complaint s!"{named word}: {e.reason}")
    let failed := sources.any fun s => s.2.toOption.isNone
    let complaints := sources.filterMap fun s =>
      match s.2 with
      | .ok _ => none
      | .error e => some (complaint s.1 e)
    let plain := sources.map fun s =>
      match s.2 with
      | .ok cs => Write.out cs
      | .error e => complaint s.1 e
    let styled := sources.flatMap fun s => s.2.toOption.getD []
    let last := if c.lostInput sources then
      [Write.err (c.complaint s!"closing standard input: {FileCause.badDescriptor.text}")] else []
    if c.closed.contains 1 then c.fail s!"standard output: {FileCause.badDescriptor.text}"
    else
      { code := if failed then 1 else 0
        writes :=
          (if style.isPlain then plain else .out (style.apply styled) :: complaints) ++ last
        left }

/-! ## §4. Copying the input. -/

/-- What `tee` can do about errors. -/
def errorModes : List String := ["warn", "warn-nopipe", "exit", "exit-nopipe"]

/-- What is wrong with the name of one of them, which may be cut short as long
as it is clear which one is meant. -/
def errorModeFault? (word : String) : Option Misuse :=
  let meant := if errorModes.contains word then [word]
    else errorModes.filter fun m => word.toList.isPrefixOf m.toList
  let kind := match meant with
    | [] => some "invalid"
    | [_] => none
    | _ => some "ambiguous"
  kind.map fun kind =>
    let shown := errorModes.map fun m => s!"\n  - {curly m}"
    let option := curly "--output-error"
    { message := s!"{kind} argument {curly word} for {option}\nValid arguments are:"
        ++ String.join shown }

/-- The options of `tee`. -/
def teeFlags : List Flag :=
  [{ letters := ['a'], names := ["append"] }, { letters := ['i'], names := ["ignore-interrupts"] },
   { letters := ['p'] },
   { names := ["output-error"], arity := .optional, fault? := errorModeFault? }]

/-- Copy the input to the output and to files. -/
def tee (c : Call) : Finish :=
  c.usage teeFlags false fun u =>
    let write (s : Files × Octets) (word : String) : Files × Octets :=
      let before := if u.has "a" then (s.1.read (pathOf word)).toOption.getD .empty else .empty
      if word.isEmpty then (s.1, s.2 ++ c.complaint s!"{named word}: {FileCause.notFound.text}")
      else
        match writeNamed s.1 word (extend before c.input) with
        | .ok files => (files, s.2)
        | .error e => (s.1, s.2 ++ c.complaint s!"{named word}: {e.reason}")
    let (files, complaints) := u.operands.foldl write (c.files, [])
    let bad := FileCause.badDescriptor.text
    let unwritten := c.closed.contains 1 && !c.input.isEmpty
    let complaints := complaints
      ++ (if c.closed.contains 0 then
          c.complaint s!"read error: {bad}" ++ c.complaint s!"standard input: {bad}" else [])
      ++ (if unwritten then c.complaint s!"'standard output': {bad}" else [])
    { code := if complaints.isEmpty then 0 else 1
      writes := [.err complaints, .out (if unwritten then [] else c.input)]
      left := some [], files := some files }

end Offside.Tool
