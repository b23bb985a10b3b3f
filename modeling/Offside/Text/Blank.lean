/-
  Offside.Text.Blank
  ──────────────────
  Blank characters, trimming, and cutting a text into lines.

  Everything works on `List Char`, so that a proof about a text is an
  induction on a list.  A text is cut at every newline character and at
  nothing else: `lines` and `unlines` are inverse to each other on lists
  of newline-free lines.
-/

namespace Offside.Text

/-! ## §1. Blank characters. -/

/-- The white-space characters of the page language: the separators and
spaces of Unicode together with the control characters that separate lines
and fields. -/
def isBlank (c : Char) : Bool :=
  let n := c.toNat
  (9 ≤ n && n ≤ 13) || (28 ≤ n && n ≤ 32) || n == 0x85 || n == 0xA0
    || n == 0x1680 || (0x2000 ≤ n && n ≤ 0x200A) || n == 0x2028
    || n == 0x2029 || n == 0x202F || n == 0x205F || n == 0x3000

/-- A space or a tab: the only blanks that a tag head may hold between its
parts. -/
def isGap (c : Char) : Bool := c == ' ' || c == '\t'

/-! ## §2. Trimming. -/

/-- The text without its leading blanks. -/
def trimLeft (cs : List Char) : List Char := cs.dropWhile isBlank

/-- The text without its trailing blanks. -/
def trimRight (cs : List Char) : List Char :=
  (cs.reverse.dropWhile isBlank).reverse

/-- The text without blanks at either end. -/
def trim (cs : List Char) : List Char := trimRight (trimLeft cs)

/-- Trimming of a string. -/
def trimString (s : String) : String := String.ofList (trim s.toList)

/-! ## §3. Lines. -/

/-- Put one character in front of a list of lines: a newline opens a new
line, any other character joins the first line. -/
def pushLine (c : Char) : List (List Char) → List (List Char)
  | [] => if c == '\n' then [[], []] else [[c]]
  | line :: rest => if c == '\n' then [] :: line :: rest else (c :: line) :: rest

/-- The pieces of a text between its newlines.  There is always at least
one piece, and one more than there are newlines. -/
def lines (cs : List Char) : List (List Char) := cs.foldr pushLine [[]]

/-- Lines joined by single newlines. -/
def unlines (ls : List (List Char)) : List Char := ['\n'].intercalate ls

/-- Every carriage return read as a newline, and a carriage return before a
newline read together with it as one. -/
def plainNewlines (cs : List Char) : List Char :=
  (cs.foldr push ([], false)).1
where
  /-- Put one character in front of a text whose newlines are plain; the flag
  says whether that text began with a newline of its own. -/
  push (c : Char) (rest : List Char × Bool) : List Char × Bool :=
    if c == '\r' then (if rest.2 then rest.1 else '\n' :: rest.1, false)
    else (c :: rest.1, c == '\n')

/-! ## §4. Quotation marks around a whole text. -/

/-- A single or a double quotation mark. -/
def isQuote (c : Char) : Bool := c == '"' || c == '\''

/-- The text without one pair of equal quotation marks around all of it; a
text that is not enclosed in such a pair stays as it is. -/
def unquote : List Char → List Char
  | [] => []
  | first :: rest =>
    if isQuote first && rest.getLast? == some first then rest.dropLast
    else first :: rest

end Offside.Text
