/-
  Offside.Tool.Edges
  ──────────────────
  The programs `head` and `tail`, which copy the start and the end of files.
-/
import Offside.Tool.Numeral
import Offside.Tool.Quoting
import Offside.Tool.Usage

namespace Offside.Tool

/-! ## §1. Amounts. -/

/-- What is counted. -/
inductive Measure where
  | lines
  | bytes
  deriving DecidableEq

/-- From which end a number counts: `all but` that many, or from that place
on. -/
inductive Bound where
  | count (n : Nat)
  | allBut (n : Nat)
  | startingAt (n : Nat)

/-- The power of the base that a letter after a number stands for. -/
def powerOf? : Char → Option Nat
  | 'k' | 'K' => some 1
  | 'm' | 'M' => some 2
  | 'G' => some 3
  | 'T' => some 4
  | 'P' => some 5
  | 'E' => some 6
  | 'Z' => some 7
  | 'Y' => some 8
  | 'R' => some 9
  | 'Q' => some 10
  | _ => none

/-- The factor that the letters after a number stand for. -/
def factor? (letters : Octets) : Option Nat :=
  match letters with
  | [] => some 1
  | ['b'] => some 512
  | c :: rest =>
    match powerOf? c, rest with
    | some n, [] | some n, ['i', 'B'] => some (Nat.pow 1024 n)
    | some n, ['B'] | some n, ['D'] => some (Nat.pow 1000 n)
    | _, _ => none

/-- A number with its factor, or a complaint.  A factor may stand alone. -/
def amount (unit : Measure) (word : String) : Except String Nat :=
  let title := match unit with | .lines => "lines" | .bytes => "bytes"
  let wrong := s!"invalid number of {title}: {curly word}"
  let body := word.toList.dropWhile isNumberBlank
  let body := match body with | '+' :: rest => rest | cs => cs
  let (n, rest) :=
    match naturalAt? 10 digit? body with
    | some found => found
    | none => if (factor? (word.toList.take 1)).isSome && !word.isEmpty then (1, word.toList) else (1, ['-'])
  match factor? rest with
  | none => .error wrong
  | some k =>
    if Nat.pow 2 64 ≤ n * k then .error s!"{wrong}: Value too large for defined data type"
    else .ok (n * k)

/-- A word without the sign in front of it. -/
def unsigned (sign : Char) (word : String) : Option String :=
  match word.toList with
  | c :: rest => if c == sign then some (String.ofList rest) else none
  | [] => none

/-! ## §2. Parts of a text. -/

/-- The units that bytes consist of; `stop` ends a line. -/
def unitsOf (stop : Char) (unit : Measure) (cs : Octets) : List Octets :=
  match unit with
  | .lines => splitAfter stop cs
  | .bytes => cs.map fun c => [c]

/-- The first units of bytes. -/
def firstOf (stop : Char) (unit : Measure) (bound : Bound) (cs : Octets) : Octets :=
  let units := unitsOf stop unit cs
  match bound with
  | .allBut n => (units.take (units.length - n)).flatten
  | .count n | .startingAt n => (units.take n).flatten

/-- The last units of bytes. -/
def lastOf (stop : Char) (unit : Measure) (bound : Bound) (cs : Octets) : Octets :=
  let units := unitsOf stop unit cs
  match bound with
  | .startingAt n => (units.drop (n - 1)).flatten
  | .count n | .allBut n => (units.drop (units.length - n)).flatten

/-! ## §3. Files. -/

/-- The title in front of a file. -/
def fileTitle (first : Bool) (word : String) : Octets :=
  let name := if word == "-" then "standard input" else word
  ((if first then "" else "\n") ++ s!"==> {name} <==\n").toList

/-- The write of one file after those before, and whether no title was
written yet.  With `idle` nothing is read.  `verb` is what cannot be done to an
input that is closed. -/
def edgeStep (c : Call) (titled idle : Bool) (verb : String) (cut : Octets → Octets)
    (s : List Write × Bool) (source : String × Except FileError Octets) : List Write × Bool :=
  let title := if titled then fileTitle s.2 source.1 else []
  match source.2 with
  | .ok cs => (s.1 ++ [.out (title ++ cut cs)], false)
  | .error (.refused .isDirectory _) =>
    let complaint := c.complaint s!"error reading {quotedForShell source.1}: Is a directory"
    (s.1 ++ .out title :: (if idle then [] else [.err complaint]), s.2 && !titled)
  | .error (.refused .badDescriptor _) =>
    let bad := FileCause.badDescriptor.text
    let complaint := c.complaint s!"{verb} 'standard input': {bad}"
    (s.1 ++ .out title :: (if idle then [] else [.err complaint]), s.2 && !titled)
  | .error e =>
    (s.1 ++ [.err (c.complaint s!"cannot open {quotedForShell source.1} for reading: {e.reason}")],
      s.2)

/-- How many bytes a program reads at once. -/
def blockSize : Nat := 8192

/-- What is left of an input from which the first part was taken: lines are
looked for in whole blocks. -/
def leftAfter (c : Call) (stop : Char) (unit : Measure) (bound : Bound) : Octets :=
  match bound with
  | .allBut _ => []
  | .count n | .startingAt n =>
    let taken := (firstOf stop unit (.count n) c.input).length
    if unit == .bytes || c.seekable then c.input.drop taken
    else if n == 0 then c.input
    else c.input.drop ((taken + blockSize - 1) / blockSize * blockSize)

/-- Copy the edge of each file. -/
def edges (c : Call) (u : Usage) (idle : Bool) (verb : String) (cut : Octets → Octets)
    (left : Octets) : Finish :=
  let words := if u.operands.isEmpty then ["-"] else u.operands
  let (sources, read) := c.sources words
  let titled :=
    match (u.options.filter fun o => o.key == "v" || o.key == "q").getLast? with
    | some o => o.key == "v"
    | none => 1 < words.length
  let (writes, _) := sources.foldl (edgeStep c titled idle verb cut) ([], true)
  let isFine (s : String × Except FileError Octets) : Bool :=
    match s.2 with
    | .ok _ => true
    | .error (.refused .isDirectory _) => idle
    | .error _ => false
  let last := if c.lostInput sources then
    [Write.err (c.complaint s!"-: {FileCause.badDescriptor.text}")] else []
  { code := if sources.all isFine then 0 else 1
    writes := writes ++ last, left := read.map fun _ => left }

/-- The counting options that were used, each with its unit and its word. -/
def counted (u : Usage) : List (Measure × String) :=
  u.options.filterMap fun o =>
    if o.key == "c" then some (.bytes, o.value.getD "")
    else if o.key == "n" then some (.lines, o.value.getD "")
    else none

/-- The options that both programs have, with what the number after an
option stands for. -/
def edgeFlags (bound : Measure → String → Except String Bound) : List Flag :=
  let fault? (unit : Measure) (word : String) : Option Misuse :=
    match bound unit word with
    | .ok _ => none
    | .error message => some ⟨message, false⟩
  [{ letters := ['n'], names := ["lines"], arity := .required, fault? := fault? .lines },
   { letters := ['c'], names := ["bytes"], arity := .required, fault? := fault? .bytes },
   { letters := ['q'], names := ["quiet", "silent"] }, { letters := ['v'], names := ["verbose"] },
   { letters := ['z'], names := ["zero-terminated"] }]

/-- The digits, which are options only in front. -/
def digitLetters : List Char := "0123456789".toList

/-- The byte that ends a line. -/
def lineEnd (u : Usage) : Char := if u.has "z" then '\x00' else '\n'

/-- The units and the bounds of all options that count; each of them must be
right. -/
def boundsOf (u : Usage) (bound : Measure → String → Except String Bound) :
    Except String (List (Measure × Bound)) :=
  (counted u).mapM fun p => return (p.1, ← bound p.1 p.2)

/-! ## §4. Old options. -/

/-- The words with the old option in front of them written anew: a number
with letters after it. -/
def headWords (words : List String) : Except String (List String) :=
  match words with
  | [] => .ok []
  | w :: rest =>
    match w.toList with
    | '-' :: cs =>
      let digits := cs.takeWhile Char.isDigit
      if digits.isEmpty then .ok words
      else do
        let (unit, scale, more) ← (cs.drop digits.length).foldlM step ("-n", "", [])
        return unit :: (String.ofList digits ++ scale) :: more ++ rest
    | _ => .ok words
where
  /-- Take in one letter after the number. -/
  step (s : String × String × List String) (c : Char) :
      Except String (String × String × List String) :=
    match c with
    | 'c' => .ok ("-c", "", s.2.2)
    | 'b' | 'k' | 'm' => .ok ("-c", String.singleton c, s.2.2)
    | 'l' => .ok ("-n", s.2.1, s.2.2)
    | 'q' | 'v' | 'z' => .ok (s.1, s.2.1, s.2.2 ++ ["-" ++ String.singleton c])
    | c => .error s!"invalid trailing option -- {c}"

/-- The words with the old option in front of one file written anew: a sign,
a number, and letters, of which something may be missing. -/
def tailWords (words : List String) : List String :=
  match words with
  | [] => []
  | w :: rest =>
    let alone :=
      match rest with
      | [] => true
      | "--" :: more => more.length ≤ 1
      | [file] => file == "-" || !file.startsWith "-"
      | _ => false
    let signed : Option (String × Octets) :=
      match w.toList with
      | '+' :: cs => some ("+", cs)
      | ['-'] | ['-', 'c'] => none
      | '-' :: cs => some ("", cs)
      | _ => none
    match alone, signed with
    | true, some (sign, cs) =>
      let digits := cs.takeWhile Char.isDigit
      let letters := cs.drop digits.length
      let (unit, scale, letters) :=
        match letters with
        | 'b' :: more => ("-c", "b", more)
        | 'c' :: more => ("-c", "", more)
        | 'l' :: more => ("-n", "", more)
        | more => ("-n", "", more)
      let number := if digits.isEmpty then "10" else String.ofList digits
      match letters with
      | [] => unit :: (sign ++ number ++ scale) :: rest
      | ['f'] => unit :: (sign ++ number ++ scale) :: "-f" :: rest
      | _ => words
    | _, _ => words

/-! ## §5. The programs. -/

/-- How much of the start a number stands for. -/
def headBound (unit : Measure) (word : String) : Except String Bound :=
  match unsigned '-' word with
  | some rest => (amount unit rest).map Bound.allBut
  | none => (amount unit word).map Bound.count

/-- How much of the end a number stands for. -/
def tailBound (unit : Measure) (word : String) : Except String Bound :=
  match unsigned '+' word, unsigned '-' word with
  | some _, _ => (amount unit word).map Bound.startingAt
  | none, some rest => (amount unit rest).map Bound.count
  | none, none => (amount unit word).map Bound.count

/-- The bound that counts for the start: the last one. -/
def firstBound (bounds : List (Measure × Bound)) : Measure × Bound :=
  bounds.getLast?.getD (.lines, .count 10)

/-- The bound that counts for the end: the last one, taken from the start if
one of them is. -/
def lastBound (bounds : List (Measure × Bound)) : Measure × Bound :=
  let fromStart := bounds.any fun b => match b.2 with | .startingAt _ => true | _ => false
  match firstBound bounds with
  | (unit, .count n) => (unit, if fromStart then .startingAt n else .count n)
  | b => b

/-- **Copy the start of files.** -/
def head (c : Call) : Finish :=
  match headWords c.words with
  | .error message => c.misused message
  | .ok words =>
    let flags := edgeFlags headBound
      ++ [{ letters := digitLetters, refusal := some ⟨"invalid trailing option", true⟩ }]
    Call.usage { c with words } flags false fun u =>
      match boundsOf u headBound with
      | .error message => c.fail message
      | .ok bounds =>
        let (unit, b) := firstBound bounds
        let idle := match b with | .count 0 => true | _ => false
        let verb := match b with | .allBut _ => "cannot fstat" | _ => "error reading"
        edges c u idle verb (firstOf (lineEnd u) unit b) (leftAfter c (lineEnd u) unit b)

/-- The options of `tail`. -/
def tailFlags : List Flag :=
  edgeFlags tailBound ++
    [{ letters := ['f'], names := ["follow"], arity := .optional }, { letters := ['F'] },
     { letters := ['s'], names := ["sleep-interval"], arity := .required },
     { names := ["max-unchanged-stats"], arity := .required },
     { names := ["pid"], arity := .required }, { names := ["retry"] },
     { letters := digitLetters, refusal := some ⟨"option used in invalid context", false⟩ }]

/-- **Copy the end of files.**  Following a file never ends; nothing is read
if nothing of it could be copied. -/
def tail (c : Call) : Finish :=
  Call.usage { c with words := tailWords c.words } tailFlags false fun u =>
    let follows := (u.has "f" || u.has "F") && u.operands.any fun w => w != "-"
    match boundsOf u tailBound with
    | .error message => c.fail message
    | .ok bounds =>
      match lastBound bounds, follows with
      | (_, .count 0), false => {}
      | (unit, b), _ =>
        let f := edges c u false "cannot fstat" (lastOf (lineEnd u) unit b) []
        if follows then { f with seconds := none } else f

end Offside.Tool
