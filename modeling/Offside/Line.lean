/-
  Offside.Line
  ────────────
  The lines of a page source.

  A source is trimmed as a whole and cut at its newlines.  Each piece that
  is not blank becomes a `Line`: how deep it is indented, its trimmed text,
  where that text stands, and what kind of line it is.  The kind of a line
  is read off its first characters alone.
-/
import Offside.Text.Blank

namespace Offside

open Text

/-! ## §1. Kinds of lines. -/

/-- What the first characters of a line make it. -/
inductive LineKind where
  /-- A document type, `!DOCTYPE name`. -/
  | doctype
  /-- Piped text, `| text`, or a bare `|` in front of a block. -/
  | pipe
  /-- A tag: the line starts with an ASCII letter. -/
  | tag
  /-- Any other line is text. -/
  | text
  deriving Repr, DecidableEq

/-- What a document type line starts with. -/
def doctypeMark : List Char := "!DOCTYPE ".toList

/-- The kind of a trimmed line.  An empty text has none. -/
def LineKind.ofText? : List Char → Option LineKind
  | [] => none
  | c :: cs =>
    some <|
      if doctypeMark.isPrefixOf (c :: cs) then .doctype
      else if c == '|' then .pipe
      else if c.isAlpha then .tag
      else .text

/-! ## §2. Lines and where they stand. -/

/-- A position in a source.  Lines and columns count from one; a position
that was made up elsewhere may be anything. -/
structure Position where
  line : Int
  column : Int
  deriving Repr, DecidableEq

/-- The position `offset` characters further on the same line. -/
def Position.shift (p : Position) (offset : Nat) : Position :=
  { p with column := p.column + offset }

/-- A line that is not blank. -/
structure Line where
  kind : LineKind
  /-- How many spaces the line starts with. -/
  indent : Nat
  /-- The line without blanks at either end. -/
  text : String
  /-- The number of the line in the source, from one. -/
  number : Nat
  /-- The column at which the text starts, from one. -/
  column : Nat
  deriving Repr, DecidableEq

/-- Where the character at `offset` in the text of a line stands. -/
def Line.position (line : Line) (offset : Nat) : Position :=
  Position.shift ⟨line.number, line.column⟩ offset

/-! ## §3. Cutting a source into lines. -/

/-- The line that a piece of the source makes, unless it is blank. -/
def Line.ofPiece? (piece : List Char) (number : Nat) : Option Line :=
  let indent := (piece.takeWhile (· == ' ')).length
  let rest := piece.drop indent
  let gap := (rest.takeWhile isBlank).length
  let text := trim rest
  (LineKind.ofText? text).map fun kind =>
    { kind, indent, text := String.ofList text, number,
      column := indent + gap + 1 }

/-- The number of the line on which the first character that is not blank
stands. -/
def firstNumber (cs : List Char) : Nat :=
  (cs.takeWhile isBlank).count '\n' + 1

/-- The lines of a source that are not blank, in order. -/
def Line.scan (source : String) : List Line :=
  let cs := source.toList
  ((lines (trim cs)).zipIdx (firstNumber cs)).filterMap fun p =>
    Line.ofPiece? p.1 p.2

end Offside
