/-
  Offside.Text.Spaces
  ───────────────────
  Runs of spaces, and how long they may be.
-/

namespace Offside.Text

/-- The text of `n` spaces. -/
def spaces (n : Nat) : String := String.ofList (List.replicate n ' ')

/-- Why a run of spaces cannot be made. -/
inductive TooWide where
  /-- The number of spaces is larger than any length. -/
  | beyondLength
  /-- There is not enough memory for the spaces. -/
  | beyondMemory
  deriving Repr, DecidableEq

/-- The wording of such a reason; of memory that is lacking nothing can be
said. -/
def TooWide.message : TooWide → String
  | .beyondLength => "cannot fit 'int' into an index-sized integer"
  | .beyondMemory => ""

/-- The largest length of a text. -/
def maxLength : Nat := Nat.pow 2 63 - 1

/-- How many spaces there is memory for.  The machine decides. -/
class Room where
  spaces : Nat

/-- The room on a machine of which nothing is said. -/
instance Room.usual : Room := ⟨Nat.pow 2 28⟩

/-- Why a number of spaces cannot be made, if it cannot.  A negative number
stands for none, but even such a number must be one that a length can be
compared with. -/
def tooWide? (room : Room) (count : Int) : Option TooWide :=
  if (maxLength : Int) < count || count < -(maxLength : Int) - 1 then some .beyondLength
  else if (room.spaces : Int) < count then some .beyondMemory
  else none

end Offside.Text
