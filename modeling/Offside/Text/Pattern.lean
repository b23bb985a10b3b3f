/-
  Offside.Text.Pattern
  ────────────────────
  Patterns in a text, and putting something else in their place.

  Matches are looked for from the left, and after a match behind it.  A part
  of a pattern that repeats takes as many characters as it can; if the parts
  behind it do not fit then, it gives back one character after the other.
-/

namespace Offside.Text

/-! ## §1. Patterns. -/

/-- A part of a pattern. -/
inductive Part where
  /-- One character of a class. -/
  | one (p : Char → Bool)
  /-- Characters of a class, as many as possible. -/
  | many (p : Char → Bool)

/-- A pattern: parts in a row, perhaps with a fixed place in the text. -/
structure Pattern where
  parts : List Part
  /-- Whether it begins at the start of the text only. -/
  atStart : Bool := false
  /-- Whether it ends at the end of the text only. -/
  atEnd : Bool := false

/-! ## §2. Matches. -/

/-- Give characters back, the last one first, until the rest fits.  Those that
are held stand in reverse. -/
def giveBack (fit : List Char → Option Nat) : List Char → List Char → Option Nat
  | [], rest => fit rest
  | c :: held, rest =>
    match fit rest with
    | some n => some (held.length + 1 + n)
    | none => giveBack fit held (c :: rest)

/-- How many characters the parts take at the front of a text. -/
def fitParts (atEnd : Bool) : List Part → List Char → Option Nat
  | [], cs => if atEnd && !cs.isEmpty then none else some 0
  | .one _ :: _, [] => none
  | .one p :: parts, c :: cs => if p c then (fitParts atEnd parts cs).map (· + 1) else none
  | .many p :: parts, cs =>
    giveBack (fitParts atEnd parts) (cs.takeWhile p).reverse (cs.dropWhile p)

/-- How many characters a pattern takes at the front of what is left of a
text; `start` says that all of it is left. -/
def Pattern.fit? (pattern : Pattern) (start : Bool) (cs : List Char) : Option Nat :=
  if pattern.atStart && !start then none else fitParts pattern.atEnd pattern.parts cs

/-! ## §3. Replacing. -/

/-- Go on replacing: so many characters of a match are still to be skipped, and
what is done stands in reverse.  The first pattern that fits decides, and a
match of no characters is none. -/
def replaceFrom (patterns : List Pattern) (new : List Char) (start : Bool) (skip : Nat)
    (done : List Char) : List Char → List Char
  | [] => done.reverse
  | c :: cs =>
    match skip with
    | skip + 1 => replaceFrom patterns new false skip done cs
    | 0 =>
      match patterns.findSome? fun pattern => pattern.fit? start (c :: cs) with
      | some (n + 1) => replaceFrom patterns new false n (new.reverse ++ done) cs
      | _ => replaceFrom patterns new false 0 (c :: done) cs

/-- **Every match of the patterns replaced.** -/
def replaceAll (patterns : List Pattern) (new : List Char) (cs : List Char) : List Char :=
  replaceFrom patterns new true 0 [] cs

end Offside.Text
