/-
  Offside.Fault
  ─────────────
  What can be wrong with a page source, and how it is told.

  A `Cause` is the reason why a line cannot be read, a `Fault` a cause at a
  position.  `Cause.message` is the one place that words the causes.  A
  `Report` is a message at a position of a source; it prints as one headline
  or as a snippet that shows the line with a caret below the place.
-/
import Offside.Line
import Offside.Text.Quoted
import Offside.Text.Spaces

namespace Offside

open Text

/-! ## §1. Limits. -/

/-- The largest source, in bytes of its UTF-8 form. -/
def maxSourceBytes : Nat := 10 * 1024 * 1024

/-- The longest tag, class, id or attribute name. -/
def maxNameLength : Nat := 100

/-- The longest quoted string, in characters after escapes are resolved. -/
def maxStringLength : Nat := 10000

/-- The largest number of attributes in one block. -/
def maxBlockAttributes : Nat := 50

/-- The deepest level at which a tag may stand; the top level is one. -/
def maxDepth : Nat := 128

/-! ## §2. Causes and faults. -/

/-- Why a line cannot be read. -/
inductive Cause where
  | tagNameMissing
  | classNameMissing
  | idMissing
  | attributeNameMissing
  | nameTooLong
  | blockNotClosed
  | tooManyAttributes
  | stringTooLong
  | escapeAtEnd
  | stringNotClosed (mark : Char)
  | textAfterString
  | colonMissing
  | doctypeNested
  | nestingTooDeep
  | contentInVoid (name : String)
  deriving Repr, DecidableEq

/-- The wording of a cause. -/
def Cause.message : Cause → String
  | .tagNameMissing => "expected tag name"
  | .classNameMissing => "expected class name after '.'"
  | .idMissing => "expected id after '#'"
  | .attributeNameMissing => "expected attribute name"
  | .nameTooLong =>
    s!"identifier too long: maximum {maxNameLength} characters allowed"
  | .blockNotClosed => "expected ']' to close attribute block"
  | .tooManyAttributes =>
    s!"too many attributes: maximum {maxBlockAttributes} per block"
  | .stringTooLong =>
    s!"string too long: maximum {maxStringLength} characters allowed"
  | .escapeAtEnd => "unexpected end of line in escaped string"
  | .stringNotClosed mark =>
    "unterminated string: expected closing " ++ quotedString (String.ofList [mark])
  | .textAfterString => "unexpected text after quoted content"
  | .colonMissing => "expected ':' or end of line after tag head"
  | .doctypeNested => "!DOCTYPE is only allowed at the top level"
  | .nestingTooDeep => s!"nesting too deep: maximum {maxDepth} levels allowed"
  | .contentInVoid name => s!"self-closing tag '{name}' cannot have content"

/-- A cause and where it was met. -/
structure Fault where
  cause : Cause
  position : Position
  deriving Repr, DecidableEq

/-! ## §3. Reports. -/

/-- A message about a place in a source. -/
structure Report where
  message : String
  position : Position
  source : String
  deriving Repr, DecidableEq

/-- The report of a fault. -/
def Fault.report (fault : Fault) (source : String) : Report :=
  ⟨fault.cause.message, fault.position, source⟩

/-- The file name used where none is known. -/
def defaultFileName : String := "input.tml"

/-- The report in one line. -/
def Report.headline (r : Report) : String :=
  s!"TML parse error at line {r.position.line}, column {r.position.column}: {r.message}"

/-- The line of the source that a report is about, without the carriage
returns at its end.  A report about no line of the source shows an empty
one. -/
def Report.shownLine (r : Report) : String :=
  if r.position.line < 1 then ""
  else
    let piece := ((lines r.source.toList)[(r.position.line - 1).toNat]?).getD []
    String.ofList (piece.reverse.dropWhile (· == '\r')).reverse

/-- The report with the line it is about and a caret below the place.  The
gutter is as wide as the line number. -/
def Report.snippet (r : Report) (file : String) : String :=
  let number := toString r.position.line
  let gutter := spaces (number.length + 1)
  let line := r.position.line
  let column := r.position.column
  let caret := spaces (column - 1).toNat ++ "^"
  s!"error: {r.message}\n{gutter}--> {file}:{line}:{column}\n{gutter}|\n"
    ++ s!"{number} | {r.shownLine}\n{gutter}| {caret}"

/-- Why a report has no snippet, if it has none: the caret would stand too far
to the right. -/
def Report.overflow? (r : Report) (room : Room := .usual) : Option TooWide :=
  tooWide? room (r.position.column - 1)

/-! ## §4. What stops a source from being read. -/

/-- Why a source as a whole is not read into a page. -/
inductive SourceError where
  /-- There is no text. -/
  | empty
  /-- The text is over the size limit. -/
  | tooLarge
  /-- The text holds a character that no page may hold. -/
  | forbidden
  /-- A line of the text cannot be read. -/
  | malformed (fault : Fault) (source : String)
  deriving Repr, DecidableEq

/-- The wording of a source error. -/
def SourceError.message : SourceError → String
  | .empty => "invalid input: must be a non-empty string"
  | .tooLarge =>
    let limit := maxSourceBytes / (1024 * 1024)
    s!"input too large: exceeds the {limit} MiB limit, "
      ++ "consider splitting it into smaller files"
  | .forbidden =>
    "invalid input: contains null bytes or invalid Unicode characters"
  | .malformed fault source => (fault.report source).headline

end Offside
