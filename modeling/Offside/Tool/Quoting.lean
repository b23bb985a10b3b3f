/-
  Offside.Tool.Quoting
  ────────────────────
  How programs write words in their complaints.

  A word that a shell could take for something else is put in quotes.  Bytes
  that cannot be printed are written as escapes.
-/
import Offside.Text.Blank
import Offside.Text.Printable
import Offside.Tool.Octets

namespace Offside.Tool

open Text

/-! ## §1. Characters of a word. -/

/-- A character of a word, or a byte that belongs to none. -/
inductive Glyph where
  | char (c : Char)
  | byte (b : Char)

/-- How many bytes the character that starts with a byte has. -/
def glyphLength (b : Char) : Nat :=
  if b.toNat < 128 then 1
  else if b.toNat < 224 then 2
  else if b.toNat < 240 then 3
  else 4

/-- The characters of a word, up to a number of them. -/
def glyphsUpTo : Nat → Octets → List Glyph
  | 0, _ => []
  | _, [] => []
  | n + 1, b :: rest =>
    let size := glyphLength b
    match text? (b :: rest.take (size - 1)) with
    | some s =>
      match s.toList with
      | [c] => .char c :: glyphsUpTo n (rest.drop (size - 1))
      | _ => .byte b :: glyphsUpTo n rest
    | none => .byte b :: glyphsUpTo n rest

/-- The characters of a word. -/
def glyphs (word : Octets) : List Glyph := glyphsUpTo word.length word

/-- Whether a character can be printed; the blanks of Unicode can. -/
def Glyph.isPrintable : Glyph → Bool
  | .char c => Text.isPrintable c || (127 < c.toNat && isBlank c && c.toNat != 133
      && c.toNat != 8232 && c.toNat != 8233)
  | .byte _ => false

/-- The bytes of a character. -/
def Glyph.octets : Glyph → Octets
  | .char c => Tool.octets (String.singleton c)
  | .byte b => [b]

/-- A byte as three octal digits. -/
def octalDigits (b : Char) : List Char :=
  let digit (n : Nat) : Char := Char.ofNat (48 + n % 8)
  [digit (b.toNat / 64), digit (b.toNat / 8), digit b.toNat]

/-- A byte that cannot be printed, as it is written after a backslash. -/
def escapeLetters (b : Char) : List Char :=
  match b.toNat with
  | 7 => ['a']
  | 8 => ['b']
  | 9 => ['t']
  | 10 => ['n']
  | 11 => ['v']
  | 12 => ['f']
  | 13 => ['r']
  | _ => octalDigits b

/-- A character that cannot be printed, as escapes. -/
def Glyph.escaped (g : Glyph) : List Char :=
  g.octets.flatMap fun b => '\\' :: escapeLetters b

/-! ## §2. Two ways of quoting. -/

/-- A word between curly quotes. -/
def curly (word : String) : String :=
  let inside := (glyphs word.toList).flatMap fun g =>
    match g with
    | .char '\\' => ['\\', '\\']
    | .char '’' => '\\' :: octets "’"
    | g => if g.isPrintable then g.octets else g.escaped
  String.ofList (octets "‘" ++ inside ++ octets "’")

/-- Whether a character means something to a shell; some do so only at the
start of a word, and braces only alone. -/
def isShellSpecial (first alone : Bool) (c : Char) : Bool :=
  if c == '\x7b' || c == '\x7d' then alone
  else if c == '#' || c == '~' then first
  else " !\"$&()*;<=>[^\x60|?:'\\".toList.contains c

/-- Whether a character may stand between double quotes as it is. -/
def isDoubleSafe (c : Char) : Bool :=
  !("!\"$&()*;<=>[^\x60|?\\@".toList.contains c)

/-- Whether a word must be quoted. -/
def needsQuotes (gs : List Glyph) : Bool :=
  gs.isEmpty || (gs.zipIdx.any fun p =>
    match p.1 with
    | .char c => !p.1.isPrintable || isShellSpecial (p.2 == 0) (gs.length == 1) c
    | .byte _ => true)

/-- The inside of single quotes.  `escaping` says whether the last character
was written as an escape. -/
def singleInside : Bool → List Glyph → List Char
  | _, [] => []
  | escaping, g :: rest =>
    if g.isPrintable then
      match g with
      | .char '\'' => ['\'', '\\', '\'', '\''] ++ singleInside false rest
      | g =>
        (if escaping then ['\'', '\''] else []) ++ g.octets ++ singleInside false rest
    else (if escaping then [] else ['\'', '$', '\'']) ++ g.escaped ++ singleInside true rest

/-- A word as the inside and the outside of quotes that a shell understands. -/
def quotedForShell (word : String) : String :=
  let gs := glyphs word.toList
  let hasSingle := gs.any fun g => match g with | .char '\'' => true | _ => false
  let plain := gs.all fun g => g.isPrintable && match g with | .char c => isDoubleSafe c | _ => false
  if hasSingle && plain then "\"" ++ word ++ "\""
  else "'" ++ String.ofList (singleInside false gs) ++ "'"

/-- A word as it is named in a complaint: in quotes if it must be. -/
def named (word : String) : String :=
  if needsQuotes (glyphs word.toList) then quotedForShell word else word

/-- Bytes as they are shown between quotes that are written anyway. -/
def printed (cs : Octets) : String :=
  String.ofList <| cs.flatMap fun c =>
    if c == '\\' then ['\\', '\\']
    else if 32 ≤ c.toNat && c.toNat < 127 then [c]
    else '\\' :: escapeLetters c

end Offside.Tool
