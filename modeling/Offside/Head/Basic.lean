/-
  Offside.Head.Basic
  ──────────────────
  The head of a tag line: `name.class#id[attributes]: content`.
-/
import Offside.Fault
import Offside.Node

namespace Offside

/-- Whether a character may stand in a tag, class, id or attribute name. -/
def isNameChar (c : Char) : Bool := c.isAlphanum || c == '_' || c == '-'

/-- What follows the colon of a tag line. -/
inductive Tail where
  /-- Nothing follows. -/
  | none
  /-- A bare `|`: the lines below are one block of text. -/
  | block
  /-- Text on the line itself. -/
  | inline (content : String)
  deriving Repr, DecidableEq

/-- Everything that a tag line says before its children. -/
structure Head where
  tag : Tag
  tail : Tail
  /-- Where the content starts in the text of the line, or where it would
  start. -/
  contentOffset : Nat
  deriving Repr, DecidableEq

/-- The text on the line itself, if there is any. -/
def Tail.content? : Tail → Option String
  | .inline content => some content
  | _ => .none

/-- A cause, met at an offset in the text of a line. -/
structure HeadFault where
  cause : Cause
  offset : Nat
  deriving Repr, DecidableEq

end Offside
