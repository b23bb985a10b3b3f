/-
  Offside.Tool.Translate
  ──────────────────────
  The program `tr`, which replaces, deletes and squeezes bytes.

  A set is written as a text in which `a-z` is a range, `[:upper:]` a class,
  `[=a=]` a byte with its equals, `[a*3]` a byte three times, and `[a*]` a
  byte as often as the other set needs it.  Translation sends the bytes of
  the first set to those of the second at the same place; the last byte of
  the second set stands in for those that it lacks.
-/
import Offside.Tool.Quoting
import Offside.Tool.Usage

namespace Offside.Tool

/-! ## §1. How sets are written. -/

/-- A byte of a set as it is written; `literal` if it was escaped and cannot
be an operator. -/
structure SetByte where
  byte : Char
  literal : Bool

/-- Whether a byte is an operator. -/
def SetByte.is (s : SetByte) (c : Char) : Bool := !s.literal && s.byte == c

/-- Whether a byte is an octal digit. -/
def isOctal (c : Char) : Bool := '0' ≤ c && c ≤ '7'

/-- The byte that a letter after a backslash stands for. -/
def escapedByte (c : Char) : Char :=
  match c with
  | 'a' => '\x07'
  | 'b' => '\x08'
  | 'f' => '\x0c'
  | 'n' => '\n'
  | 'r' => '\x0d'
  | 't' => '\t'
  | 'v' => '\x0b'
  | c => c

/-- How many of the octal digits at the start belong to one byte. -/
def octalCount (cs : Octets) : Nat :=
  let digits := (cs.take 3).takeWhile isOctal
  if 256 ≤ digitsOf digits then 2 else digits.length
where
  /-- The number that octal digits write. -/
  digitsOf (digits : List Char) : Nat := digits.foldl (fun n c => n * 8 + (c.toNat - 48)) 0

/-- What is said of a backslash, if anything, by what follows it. -/
def escapeWarning? (cs : Octets) : Option String :=
  match cs with
  | [] => some "warning: an unescaped backslash at end of string is not portable"
  | a :: b :: c :: _ =>
    if octalCount cs == 2 && isOctal c then
      some (s!"warning: the ambiguous octal escape \\{a}{b}{c} is being\n\tinterpreted as "
        ++ s!"the 2-byte sequence \\0{a}{b}, {c}")
    else none
  | _ => none

/-- The bytes of a set with their escapes resolved, and what is said of
them. -/
def unescapeSet : Octets → List SetByte × List String
  | [] => ([], [])
  | '\\' :: rest =>
    let warnings := (escapeWarning? rest).toList
    let count := octalCount rest
    if 0 < count then
      let value := octalCount.digitsOf (rest.take count)
      let (bytes, more) := unescapeSet (rest.drop count)
      (⟨Char.ofNat value, true⟩ :: bytes, warnings ++ more)
    else
      match rest with
      | [] => ([⟨'\\', false⟩], warnings)
      | c :: rest =>
        let (bytes, more) := unescapeSet rest
        (⟨escapedByte c, true⟩ :: bytes, more)
  | c :: rest =>
    let (bytes, more) := unescapeSet rest
    (⟨c, false⟩ :: bytes, more)
termination_by cs => cs.length
decreasing_by all_goals simp_all only [List.length_cons, List.length_drop]; omega

/-! ## §2. What sets are made of. -/

/-- A named class of bytes. -/
inductive ByteClass where
  | upper | lower | alpha | digit | alnum | space | blank | punct | cntrl | print | graph | xdigit
  deriving DecidableEq

/-- The class of a name. -/
def ByteClass.ofName? : String → Option ByteClass
  | "upper" => some .upper
  | "lower" => some .lower
  | "alpha" => some .alpha
  | "digit" => some .digit
  | "alnum" => some .alnum
  | "space" => some .space
  | "blank" => some .blank
  | "punct" => some .punct
  | "cntrl" => some .cntrl
  | "print" => some .print
  | "graph" => some .graph
  | "xdigit" => some .xdigit
  | _ => none

/-- Whether a byte is in a class; all classes are of ASCII characters. -/
def ByteClass.holds (k : ByteClass) (c : Char) : Bool :=
  let n := c.toNat
  match k with
  | .upper => c.isUpper
  | .lower => c.isLower
  | .alpha => c.isAlpha
  | .digit => c.isDigit
  | .alnum => c.isAlphanum
  | .space => n == 32 || (9 ≤ n && n ≤ 13)
  | .blank => n == 32 || n == 9
  | .punct => 33 ≤ n && n ≤ 126 && !c.isAlphanum
  | .cntrl => n < 32 || n == 127
  | .print => 32 ≤ n && n ≤ 126
  | .graph => 33 ≤ n && n ≤ 126
  | .xdigit => c.isDigit || ('a' ≤ c && c ≤ 'f') || ('A' ≤ c && c ≤ 'F')

/-- All bytes, in order. -/
def allBytes : List Char := (List.range 256).map Char.ofNat

/-- The bytes of a class, in order. -/
def ByteClass.members (k : ByteClass) : List Char := allBytes.filter k.holds

/-- A part of a set.  A byte that is repeated no times is repeated as often as
there is need. -/
inductive SetPart where
  | single (c : Char)
  | range (first last : Char)
  | named (k : ByteClass)
  | equals (c : Char)
  | repeated (c : Char) (count : Nat)

/-- How many bytes a part has. -/
def SetPart.size : SetPart → Nat
  | .single _ | .equals _ => 1
  | .range first last => last.toNat - first.toNat + 1
  | .named k => k.members.length
  | .repeated _ count => count

/-- More bytes of one kind than this make no difference. -/
def maxRepeats : Nat := 4096

/-- The bytes of a part, in order. -/
def SetPart.bytes : SetPart → List Char
  | .single c | .equals c => [c]
  | .range first last => allBytes.filter fun c => first ≤ c && c ≤ last
  | .named k => k.members
  | .repeated c count => List.replicate (min count maxRepeats) c

/-! ## §3. Reading sets. -/

/-- The bytes in front of a closing mark, if it is there. -/
def beforeClosing? (mark : Char) : List SetByte → Option (List SetByte)
  | a :: b :: rest =>
    if a.is mark && b.is ']' then some []
    else (beforeClosing? mark (b :: rest)).map (a :: ·)
  | _ => none

/-- An end of a range as it is printed. -/
def printedEnd (b : SetByte) : String :=
  if ByteClass.print.holds b.byte then String.singleton b.byte
  else String.ofList ('\\' :: octalDigits b.byte)

/-- The bytes as they are printed. -/
def printedBytes (bs : List SetByte) : String := printed (bs.map (·.byte))

/-- Whether a star, digits and a bracket follow. -/
def isStarCount : List SetByte → Bool
  | s :: rest =>
    s.is '*' && (match rest.dropWhile fun b => !b.literal && b.byte.isDigit with
      | close :: _ => close.is ']'
      | [] => false)
  | [] => false

/-- The number of a repetition: octal if it starts with a zero. -/
def repeatCount? (digits : List Char) : Option Nat :=
  let base := if digits.head? == some '0' then 8 else 10
  if digits.all fun c => c.isDigit && c.toNat - 48 < base then
    some (digits.foldl (fun n c => n * base + (c.toNat - 48)) 0)
  else none

/-- The repetition after an opening bracket: the part, and how many bytes it
takes. -/
def repetition? (bs : List SetByte) : Except String (Option (SetPart × Nat)) :=
  match bs with
  | c :: star :: rest =>
    if !star.is '*' then .ok none
    else
      let run := rest.takeWhile fun b => !b.literal && b.byte != ']'
      match rest.drop run.length with
      | close :: _ =>
        if !close.is ']' then .ok none
        else if run.isEmpty then .ok (some (.repeated c.byte 0, 3))
        else
          let wrong := s!"invalid repeat count {curly (printedBytes run)} in [c*n] construct"
          match repeatCount? (run.map (·.byte)) with
          | some n => if Nat.pow 2 64 - 2 < n then .error wrong else .ok (some (.repeated c.byte n, run.length + 3))
          | none => .error wrong
      | [] => .ok none
  | _ => .ok none

/-- The class or the equals after an opening bracket and a mark: the part, and
how many bytes it takes. -/
def bracketed? (bs : List SetByte) : Except String (Option (SetPart × Nat)) :=
  match bs with
  | mark :: rest =>
    if !(mark.is ':' || mark.is '=') then .ok none
    else
      match beforeClosing? mark.byte rest with
      | none => .ok none
      | some inside =>
        let found : Option SetPart :=
          if mark.is ':' then
            (ByteClass.ofName? (String.ofList (inside.map (·.byte)))).map SetPart.named
          else
            match inside with
            | [c] => some (.equals c.byte)
            | _ => none
        match found with
        | some part => .ok (some (part, inside.length + 3))
        | none =>
          if inside.isEmpty then
            .error (if mark.is ':' then "missing character class name '[::]'"
              else "missing equivalence class character '[==]'")
          else if isStarCount rest then .ok none
          else if mark.is ':' then
            .error s!"invalid character class {curly (printedBytes inside)}"
          else
            .error (printedBytes inside
              ++ ": equivalence class operand must be a single character")
  | [] => .ok none

/-- The construct at an opening bracket: the part, and how many bytes it takes
beside the bracket. -/
def construct? (bs : List SetByte) : Except String (Option (SetPart × Nat)) := do
  match ← bracketed? bs with
  | some found => return some found
  | none => repetition? bs

/-- The parts of a set.  A construct has at least three bytes. -/
def setParts (bs : List SetByte) : Except String (List SetPart) :=
  match bs with
  | a :: b :: c :: rest => do
    let found ← if a.is '[' then construct? (b :: c :: rest) else pure none
    match found with
    | some (part, taken) => return part :: (← setParts ((b :: c :: rest).drop taken))
    | none =>
      if b.is '-' then
        if c.byte < a.byte then
          throw (s!"range-endpoints of '{printedEnd a}-{printedEnd c}' are in "
            ++ "reverse collating sequence order")
        return .range a.byte c.byte :: (← setParts rest)
      else return .single a.byte :: (← setParts (b :: c :: rest))
  | bs => .ok (bs.map fun b => .single b.byte)
termination_by bs.length
decreasing_by all_goals simp only [List.length_cons, List.length_drop]; omega

/-- The sets that words write, up to one that is wrong, and what is said of
them. -/
def readSets : List String → List String × Except String (List (List SetPart))
  | [] => ([], .ok [])
  | word :: words =>
    let (bytes, warnings) := unescapeSet word.toList
    match setParts bytes with
    | .error message => (warnings, .error message)
    | .ok parts =>
      let (more, sets) := readSets words
      (warnings ++ more, sets.map (parts :: ·))

/-! ## §4. Checking sets. -/

/-- What `tr` is asked to do. -/
structure TranslateOptions where
  complement : Bool := false
  delete : Bool := false
  squeeze : Bool := false
  truncate : Bool := false

/-- Whether a part is repeated as often as there is need. -/
def SetPart.isOpen : SetPart → Bool
  | .repeated _ 0 => true
  | _ => false

/-- Whether a part is a class. -/
def SetPart.isClass : SetPart → Bool
  | .named _ => true
  | _ => false

/-- The case that a class of letters is in. -/
inductive LetterCase where
  | upper
  | lower
  deriving DecidableEq

/-- The case of a part. -/
def SetPart.case? : SetPart → Option LetterCase
  | .named .upper => some .upper
  | .named .lower => some .lower
  | _ => none

/-- The number of bytes of parts. -/
def sizeOf (parts : List SetPart) : Nat := (parts.map SetPart.size).foldl (· + ·) 0

/-- The bytes of parts. -/
def bytesOf (parts : List SetPart) : List Char := parts.flatMap SetPart.bytes

/-- A byte of a set and the case of its part, with the bytes after it in the
same part and the parts after that. -/
def nextOf : List SetPart → Option (Char × Option LetterCase × List Char × List SetPart)
  | [] => none
  | p :: rest =>
    match p.bytes with
    | [] => nextOf rest
    | c :: more => some (c, p.case?, more, rest)

/-- Bytes in front of parts, as parts. -/
def singles (cs : List Char) (parts : List SetPart) : List SetPart :=
  cs.map SetPart.single ++ parts

/-- How many bytes of two sets, taken side by side, fall away because a class
of letters counts once; nothing if the classes do not stand side by side.
`fresh` says whether the next byte of each set starts a part. -/
def aligned (fresh : Bool × Bool) : Nat → List SetPart → List SetPart → Option Nat
  | 0, _, _ => some 0
  | fuel + 1, first, second =>
    match nextOf first, nextOf second with
    | one, some (_, some _, _, rest2) =>
      match one with
      | some (_, some _, _, rest1) =>
        if fresh.2 && !fresh.1 then none
        else (aligned (true, true) fuel rest1 rest2).map (· + 25)
      | _ => none
    | some (_, _, more1, rest1), some (_, _, more2, rest2) =>
      aligned (more1.isEmpty, more2.isEmpty) fuel (singles more1 rest1) (singles more2 rest2)
    | _, _ => some 0

/-- The second set with its open repetition filled up. -/
def filled (size : Nat) (second : List SetPart) : List SetPart :=
  let missing := size - sizeOf second
  second.map fun p =>
    match p with
    | .repeated c 0 => .repeated c missing
    | p => p

/-- Whether all bytes of a set are the same. -/
def isUniform (parts : List SetPart) : Bool :=
  match bytesOf parts with
  | [] => true
  | c :: rest => rest.all (· == c)

/-- The byte that fills up a second set, unless it ends with a class. -/
def fillByte? (second : List SetPart) : Option Char :=
  match second.getLast? with
  | some (.named _) => none
  | some p => p.bytes.getLast?.or (match p with | .repeated c _ => some c | _ => none)
  | none => none

/-- The number of bytes that the first set stands for. -/
def TranslateOptions.sizeOfFirst (o : TranslateOptions) (first : List SetPart) : Nat :=
  if o.complement then (allBytes.filter fun c => !(bytesOf first).contains c).length
  else sizeOf first

/-- The second set of a translation, made as long as the first, or a
complaint. -/
def TranslateOptions.settle (o : TranslateOptions) (first second : List SetPart) :
    Except String (List SetPart) := do
  let size1 := o.sizeOfFirst first
  let second := if size1 < sizeOf second then second else filled size1 second
  if second.any fun p => match p with | .equals _ => true | _ => false then
    throw "[=c=] expressions may not appear in string2 when translating"
  if second.any fun p => p.isClass && p.case?.isNone then
    throw ("when translating, the only character classes that may appear in\n"
      ++ "string2 are 'upper' and 'lower'")
  let less ←
    if o.complement || !second.any SetPart.isClass then pure 0
    else
      match aligned (true, true) (sizeOf first + sizeOf second + 2) first second with
      | some less => pure less
      | none => throw "misaligned [:upper:] and/or [:lower:] construct"
  let (size1, size2) := (size1 - less, sizeOf second - less)
  let second ←
    if size1 ≤ size2 || o.truncate then pure second
    else if size2 == 0 then throw "when not truncating set1, string2 must be non-empty"
    else
      match fillByte? second with
      | some c => pure (second ++ [.repeated c (size1 - size2)])
      | none => throw ("when translating with string1 longer than string2,\n"
          ++ "the latter string must not end with a character class")
  if o.complement && first.any SetPart.isClass
      && !(sizeOf second == size1 && isUniform second) then
    throw ("when translating with complemented character classes,\n"
      ++ "string2 must map all characters in the domain to one")
  return second

/-- The sets of a call with their repetitions settled, or a complaint. -/
def TranslateOptions.check (o : TranslateOptions) (first : List SetPart)
    (second : Option (List SetPart)) : Except String (Option (List SetPart)) := do
  if first.any SetPart.isOpen then
    throw "the [c*] repeat construct may not appear in string1"
  match second with
  | none => return none
  | some second =>
    let open? := (second.filter SetPart.isOpen).length
    if 1 < open? then throw "only one [c*] repeat construct may appear in string2"
    if o.delete then
      if 0 < open? then
        throw "the [c*] construct may appear in string2 only when translating"
      return some second
    else return some (← o.settle first second)

/-! ## §5. What is done to bytes. -/

/-- The letters of one case sent to those of the other. -/
def caseTable (source : LetterCase) (table : Array Char) : Array Char :=
  match source with
  | .lower => ByteClass.lower.members.foldl (fun t c => t.setIfInBounds c.toNat c.toUpper) table
  | .upper => ByteClass.upper.members.foldl (fun t c => t.setIfInBounds c.toNat c.toLower) table

/-- Where each byte of the first set goes; of two places for one byte the last
counts. -/
def sendAll (table : Array Char) : Nat → List SetPart → List SetPart → Array Char
  | 0, _, _ => table
  | fuel + 1, first, second =>
    match nextOf first, nextOf second with
    | some (a, k1, more1, rest1), some (b, k2, more2, rest2) =>
      match k1, k2 with
      | some .lower, some .upper => sendAll (caseTable .lower table) fuel rest1 rest2
      | some .upper, some .lower => sendAll (caseTable .upper table) fuel rest1 rest2
      | _, _ =>
        sendAll (table.setIfInBounds a.toNat b) fuel (parted k1 more1 rest1) (parted k2 more2 rest2)
    | _, _ => table
where
  /-- The rest of a part, which stays of its case, and the parts after it. -/
  parted (_ : Option LetterCase) (more : List Char) (rest : List SetPart) : List SetPart :=
    singles more rest

/-- Where each byte goes. -/
def TranslateOptions.table (o : TranslateOptions) (first second : List SetPart) : Array Char :=
  let plain := allBytes.toArray
  if o.complement then
    let members := bytesOf first
    let others := allBytes.filter fun c => !members.contains c
    (others.zip (bytesOf second)).foldl (fun t p => t.setIfInBounds p.1.toNat p.2) plain
  else sendAll plain ((bytesOf first).length + 1) first second

/-- A set of bytes as a table. -/
def memberTable (complement : Bool) (parts : List SetPart) : Array Bool :=
  (bytesOf parts).foldl (fun t c => t.setIfInBounds c.toNat (!complement))
    (Array.replicate 256 complement)

/-- Whether a byte is in a set. -/
def isIn (table : Array Bool) (c : Char) : Bool := table.getD c.toNat false

/-- Runs of one byte of a set made one byte. -/
def squeezed (table : Array Bool) (cs : Octets) : Octets := (cs.foldl push []).reverse
where
  /-- Add a byte unless it repeats the last one and is in the set. -/
  push (done : Octets) (c : Char) : Octets :=
    match done with
    | last :: _ => if last == c && isIn table c then done else c :: done
    | [] => [c]

/-! ## §6. The program. -/

/-- The options of `tr`. -/
def translateFlags : List Flag :=
  [{ letters := ['c', 'C'], names := ["complement"] }, { letters := ['d'], names := ["delete"] },
   { letters := ['s'], names := ["squeeze-repeats"] },
   { letters := ['t'], names := ["truncate-set1"] }, { letters := ['A'] }]

/-- What the sets do to the input. -/
def TranslateOptions.run (o : TranslateOptions) (first : List SetPart)
    (second : Option (List SetPart)) (cs : Octets) : Octets :=
  let members := memberTable o.complement first
  let remaining (cs : Octets) : Octets := cs.filter fun c => !isIn members c
  match second with
  | none => if o.delete then remaining cs else squeezed members cs
  | some second =>
    let kept := memberTable false second
    if o.delete then squeezed kept (remaining cs)
    else
      let table := o.table first second
      let sent := cs.map fun c => table.getD c.toNat c
      if o.squeeze then squeezed kept sent else sent

/-- What is wrong with the number of sets, if anything. -/
def TranslateOptions.miscount? (o : TranslateOptions) (words : List String) : Option String :=
  let least := if o.delete == o.squeeze then 2 else 1
  let most := if o.delete && !o.squeeze then 1 else 2
  match words with
  | [] => some "missing operand"
  | w :: more =>
    if words.length < least then
      some (s!"missing operand after {curly w}\n"
        ++ (if o.squeeze then
            "Two strings must be given when both deleting and squeezing repeats."
          else "Two strings must be given when translating."))
    else if most < words.length then
      some (s!"extra operand {curly (words.getD most w)}"
        ++ (if words.length == 2 && !more.isEmpty then
            "\nOnly one string may be given when deleting without squeezing repeats."
          else ""))
    else none

/-- **Replace, delete and squeeze bytes.** -/
def translate (c : Call) : Finish :=
  c.usage translateFlags true fun u =>
    let o : TranslateOptions :=
      { complement := u.has "c", delete := u.has "d", squeeze := u.has "s", truncate := u.has "t" }
    match o.miscount? u.operands with
    | some message => c.misused message
    | none =>
      let (warnings, sets) := readSets u.operands
      let said := warnings.map fun message => Write.err (c.complaint message)
      let checked : Except String (List SetPart × Option (List SetPart)) := do
        let sets ← sets
        let first := sets.headD []
        return (first, ← o.check first (sets.drop 1).head?)
      match checked with
      | .error message => { code := 1, writes := said ++ [.err (c.complaint message)] }
      | .ok (first, second) =>
        if c.closed.contains 0 then
          let message := s!"read error: {FileCause.badDescriptor.text}"
          { code := 1, writes := said ++ [.err (c.complaint message)] }
        else { writes := said ++ [.out (o.run first second c.input)], left := some [] }

end Offside.Tool
