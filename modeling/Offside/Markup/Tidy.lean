/-
  Offside.Markup.Tidy
  ───────────────────
  Tidying markup when no formatter does it.

  Runs of blank lines shrink to one, blank lines at the start and the end go,
  and no line ends in blanks.  The rule is stated by patterns and not on lines,
  because a run of blanks may mix newlines with other blanks.
-/
import Offside.Text.Blank
import Offside.Text.Pattern

namespace Offside.Markup

open Text

/-! ## §1. Patterns of blanks. -/

/-- Whether a character ends a line. -/
def isNewline (c : Char) : Bool := c == '\n'

/-- Three newlines, with nothing but blanks between them. -/
def blankRun : Pattern where
  parts := [.one isNewline, .many isBlank, .one isNewline, .many isBlank, .one isNewline]

/-- The blanks at the start of the text, up to a newline. -/
def leadingBlanks : Pattern where
  parts := [.many isBlank, .one isNewline]
  atStart := true

/-- The blanks at the end of the text, from a newline on. -/
def trailingBlanks : Pattern where
  parts := [.one isNewline, .many isBlank]
  atEnd := true

/-! ## §2. Tidying. -/

/-- Without more than one blank line in a row. -/
def spaced (cs : List Char) : List Char := replaceAll [blankRun] ['\n', '\n'] cs

/-- Without blank lines at either end. -/
def cut (cs : List Char) : List Char := replaceAll [leadingBlanks, trailingBlanks] [] cs

/-- **Tidy markup**: at most one blank line in a row, none at either end, and
no blanks at the end of a line. -/
def tidy (cs : List Char) : List Char := unlines ((lines (cut (spaced cs))).map trimRight)

/-- Tidying of a string. -/
def tidyString (s : String) : String := String.ofList (tidy s.toList)

end Offside.Markup
