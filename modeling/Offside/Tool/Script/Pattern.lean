/-
  Offside.Tool.Script.Pattern
  ───────────────────────────
  Patterns: a star fits any text, a question mark any byte, and brackets one
  of several bytes.

  The bytes of an expanded word remember whether they were quoted; a quoted
  byte fits only itself.
-/
import Offside.Tool.Script.State
import Offside.Tool.Translate

namespace Offside.Tool.Script

/-! ## §1. Patterns. -/

/-- A byte of an expanded word. -/
structure Cell where
  char : Char
  /-- It stands for itself. -/
  quoted : Bool := false
  /-- A field may end here. -/
  splits : Bool := false

/-- What brackets may hold. -/
inductive BracketItem where
  | range (first last : Char)
  | named (k : ByteClass)

/-- A part of a pattern. -/
inductive PatternPart where
  | byte (c : Char)
  | one
  | many
  | bracket (negated : Bool) (items : List BracketItem)

/-- Whether a cell is an unquoted byte. -/
def Cell.is (x : Cell) (c : Char) : Bool := !x.quoted && x.char == c

/-- Whether brackets hold a byte. -/
def BracketItem.holds (c : Char) : BracketItem → Bool
  | .range first last => first ≤ c && c ≤ last
  | .named k => k.holds c

/-- A class in brackets, and what follows it. -/
def classAt? (cs : List Cell) : Option (ByteClass × List Cell) :=
  match cs with
  | a :: b :: rest =>
    if a.is '[' && b.is ':' then
      let name := rest.takeWhile fun c => c.char.isAlpha
      match rest.drop name.length with
      | x :: y :: after =>
        if x.is ':' && y.is ']' then
          (ByteClass.ofName? (String.ofList (name.map (·.char)))).map (·, after)
        else none
      | _ => none
    else none
  | _ => none

/-- What stands in brackets, and what follows them; nothing if they are not
closed. -/
def bracketItems (first : Bool) : Nat → List Cell → Option (List BracketItem × List Cell)
  | 0, _ => none
  | fuel + 1, cs =>
    match cs with
    | [] => none
    | c :: rest =>
      if c.is ']' && !first then some ([], rest)
      else
        match classAt? cs with
        | some (k, rest) =>
          (bracketItems false fuel rest).map fun p => (.named k :: p.1, p.2)
        | none =>
          let (c, rest) := match c.is '\\', rest with
            | true, d :: rest => (d, rest)
            | _, _ => (c, rest)
          match rest with
          | dash :: last :: after =>
            if dash.is '-' && !last.is ']' then
              (bracketItems false fuel after).map fun p => (.range c.char last.char :: p.1, p.2)
            else (bracketItems false fuel rest).map fun p => (.range c.char c.char :: p.1, p.2)
          | _ => (bracketItems false fuel rest).map fun p => (.range c.char c.char :: p.1, p.2)

/-- The parts of a pattern. -/
def patternOf : Nat → List Cell → List PatternPart
  | 0, _ => []
  | _, [] => []
  | fuel + 1, c :: rest =>
    if c.is '*' then .many :: patternOf fuel rest
    else if c.is '?' then .one :: patternOf fuel rest
    else if c.is '[' then
      let (negated, body) := match rest with
        | d :: more => if d.is '!' || d.is '^' then (true, more) else (false, rest)
        | [] => (false, rest)
      match bracketItems true (body.length + 1) body with
      | some (items, after) => .bracket negated items :: patternOf fuel after
      | none => .byte '[' :: patternOf fuel rest
    else
      match c.is '\\', rest with
      | true, d :: more => .byte d.char :: patternOf fuel more
      | _, _ => .byte c.char :: patternOf fuel rest

/-- The pattern of an expanded word. -/
def pattern (cells : List Cell) : List PatternPart := patternOf cells.length cells

/-- Whether a part fits one byte. -/
def PatternPart.fits (c : Char) : PatternPart → Bool
  | .byte d => c == d
  | .one => true
  | .many => false
  | .bracket negated items => (items.any fun i => i.holds c) != negated

/-- The ends of a text from which a pattern can go on after a star. -/
def tailsOf : Octets → List Octets
  | [] => [[]]
  | c :: rest => (c :: rest) :: tailsOf rest

/-- **Whether a pattern fits a whole text.** -/
def fits : List PatternPart → Octets → Bool
  | [], cs => cs.isEmpty
  | .many :: ps, cs => (tailsOf cs).any fun rest => fits ps rest
  | p :: ps, c :: cs => p.fits c && fits ps cs
  | _ :: _, [] => false

/-! ## §2. Trimming. -/

/-- A text without its shortest or longest start that fits a pattern. -/
def withoutStart (longest : Bool) (ps : List PatternPart) (cs : Octets) : Octets :=
  let cuts := List.range (cs.length + 1)
  let cuts := if longest then cuts.reverse else cuts
  match cuts.find? fun n => fits ps (cs.take n) with
  | some n => cs.drop n
  | none => cs

/-- A text without its shortest or longest end that fits a pattern. -/
def withoutEnd (longest : Bool) (ps : List PatternPart) (cs : Octets) : Octets :=
  let cuts := List.range (cs.length + 1)
  let cuts := if longest then cuts else cuts.reverse
  match cuts.find? fun n => fits ps (cs.drop n) with
  | some n => cs.take n
  | none => cs

/-! ## §3. File names. -/

/-- The cells of an expanded word between its slashes, each part with the
slashes in front of it. -/
def pathParts (cells : List Cell) : List (Nat × List Cell) :=
  let (done, slashes, current) := cells.foldl push ([], 0, [])
  (if current.isEmpty && slashes == 0 then done else (slashes, current.reverse) :: done).reverse
where
  /-- Add one cell. -/
  push (s : List (Nat × List Cell) × Nat × List Cell) (c : Cell) :
      List (Nat × List Cell) × Nat × List Cell :=
    let (done, slashes, current) := s
    if c.char == '/' then
      if current.isEmpty then (done, slashes + 1, [])
      else ((slashes, current.reverse) :: done, 1, [])
    else (done, slashes, c :: current)

/-- Whether a word has a byte that patterns are made of. -/
def isPattern (cells : List Cell) : Bool :=
  cells.any fun c => c.is '*' || c.is '?' || c.is '['

/-- The bytes of a word. -/
def plain (cells : List Cell) : Octets := cells.map (·.char)

/-- The names in a directory, sorted. -/
def namesIn (files : Files) (directory : String) : List Octets :=
  let path := Path.ofString (nameOf (if directory.isEmpty then "." else directory))
  match files.locate path with
  | .error _ => []
  | .ok loc =>
    let names := files.entries.filterMap fun e =>
      if e.1.length == loc.length + 1 && loc.isPrefixOf e.1 then
        e.1.getLast?.map octets
      else none
    names.mergeSort fun a b => !List.lex b a fun c d => c.toNat.blt d.toNat

/-- Whether a name fits a part of a pattern; a dot at its start must be
written out. -/
def nameFits (cells : List Cell) (name : Octets) : Bool :=
  let dotted := cells.head?.any fun c => c.char == '.'
  (name.head? != some '.' || dotted) && fits (pattern cells) name

/-- The paths that fit the parts of a pattern below a path that was found. -/
def pathsBelow (files : Files) : List (Nat × List Cell) → String → List String
  | [], found => [found]
  | (slashes, cells) :: rest, found =>
    let front := found ++ String.ofList (List.replicate slashes '/')
    if isPattern cells then
      let names := (namesIn files front).filter (nameFits cells)
      names.flatMap fun name =>
        let next := front ++ String.ofList name
        if rest.isEmpty || files.isDirectory (Path.ofString (nameOf next)) then
          pathsBelow files rest next
        else []
    else
      let next := front ++ String.ofList (plain cells)
      if files.isPresent (Path.ofString (nameOf next)) then pathsBelow files rest next else []

/-- The file names that a word stands for, or the word itself if it stands
for none. -/
def fileNames (files : Files) (cells : List Cell) : List String :=
  let word := String.ofList (plain cells)
  if isPattern cells then
    match pathsBelow files (pathParts cells) "" with
    | [] => [word]
    | found => found
  else [word]

end Offside.Tool.Script
