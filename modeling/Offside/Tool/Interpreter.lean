/-
  Offside.Tool.Interpreter
  ────────────────────────
  Files that say which program is to read them.

  Such a file starts with two marks.  After them, up to the end of the line,
  stand the path of the program and at most one argument, which may have
  blanks inside.  Only the first bytes of a file are looked at, and null bytes
  stand for those that are missing.
-/
import Offside.Tool.Octets

namespace Offside.Tool

/-- The program that is to read a file, and an argument for it. -/
structure Interpreter where
  path : String
  argument : Option String
  deriving Repr, DecidableEq

namespace Interpreter

/-- How many bytes of a file are looked at. -/
def room : Nat := 256

/-- The blanks of a first line. -/
def isGap (c : Char) : Bool := c == ' ' || c == '\t'

/-- What ends the path of a program. -/
def isStop (c : Char) : Bool := isGap c || c == '\x00'

/-- The bytes that are looked at. -/
def start (bytes : ByteArray) : Octets :=
  let cs := ofBytes (bytes.extract 0 room)
  cs ++ List.replicate (room - cs.length) '\x00'

/-- What stands on the first line after the marks.  A line whose end is not
seen must at least show where the path ends; its last byte does not count. -/
def lineOf? (cs : Octets) : Option Octets :=
  let line := cs.takeWhile fun c => c != '\n' && c != '\x00'
  match cs.drop line.length with
  | '\n' :: _ => some line
  | _ => if (cs.dropWhile isGap).any isStop then some cs.dropLast else none

/-- Bytes without the blanks at both ends. -/
def trimmed (cs : Octets) : Octets :=
  ((cs.dropWhile isGap).reverse.dropWhile isGap).reverse

/-- The program and the argument on a line. -/
def ofLine? (line : Octets) : Option Interpreter :=
  let body := trimmed line
  let path := body.takeWhile fun c => !isStop c
  let argument := match body.drop path.length with
    | [] | '\x00' :: _ => none
    | rest => some ((rest.dropWhile isGap).takeWhile (· != '\x00'))
  if body.isEmpty then none
  else some ⟨String.ofList path, argument.map String.ofList⟩

/-- **The program that a file names**, if it starts with the marks and names
one. -/
def ofBytes? (bytes : ByteArray) : Option Interpreter :=
  match start bytes with
  | '#' :: '!' :: cs => (lineOf? cs).bind ofLine?
  | _ => none

end Interpreter

/-! ## Files that are no text. -/

/-- How many bytes of a file show whether it is text. -/
def textRoom : Nat := 128

/-- Whether no text has a byte. -/
def isTextless (c : Char) : Bool :=
  let n := c.toNat
  n < 9 || (15 < n && n < 32 && n != 27) || n == 127

/-- Whether the first line of a file shows that it is no text. -/
def looksBinary (bytes : ByteArray) : Bool :=
  ((ofBytes (bytes.extract 0 textRoom)).takeWhile (· != '\n')).any isTextless

end Offside.Tool
