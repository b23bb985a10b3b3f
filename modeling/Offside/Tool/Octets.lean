/-
  Offside.Tool.Octets
  ───────────────────
  Bytes as programs see them.

  A program reads and writes bytes, and few of them must form a text.  Inside
  a host a byte is written as the character with its number, so that texts of
  ASCII characters are their own bytes; a text with other characters is taken
  apart on the way in and put together on the way out.
-/

namespace Offside.Tool

/-- Bytes; every character is below 256 and stands for the byte of its
number. -/
abbrev Octets := List Char

/-- The bytes of an array. -/
def ofBytes (bytes : ByteArray) : Octets := bytes.toList.map fun b => Char.ofNat b.toNat

/-- Bytes put into an array. -/
def toBytes (cs : Octets) : ByteArray := ⟨(cs.map fun c => c.toNat.toUInt8).toArray⟩

/-- The bytes of a text. -/
def octets (s : String) : Octets := ofBytes s.toUTF8

/-- The bytes of a text, as a text of one character a byte. -/
def octetString (s : String) : String := String.ofList (octets s)

/-- The text that bytes form, if they form one. -/
def text? (cs : Octets) : Option String := String.fromUTF8? (toBytes cs)

/-- The text that bytes form, or one with a null character, which no name
has. -/
def nameOf (s : String) : String := (text? s.toList).getD "\x00"

/-- Bytes added to the end of an array. -/
def extend (bytes : ByteArray) (cs : Octets) : ByteArray :=
  cs.foldl (fun a c => a.push c.toNat.toUInt8) bytes

/-- Bytes cut after every byte of one kind. -/
def splitAfter (stop : Char) (cs : Octets) : List Octets :=
  let (done, last) := cs.foldl push ([], [])
  (if last.isEmpty then done else last.reverse :: done).reverse
where
  /-- Add a byte to the piece under way, which is kept in reverse. -/
  push (s : List Octets × Octets) (c : Char) : List Octets × Octets :=
    if c == stop then ((c :: s.2).reverse :: s.1, []) else (s.1, c :: s.2)

/-- Bytes cut after every newline. -/
def splitLines (cs : Octets) : List Octets := splitAfter '\n' cs

end Offside.Tool
