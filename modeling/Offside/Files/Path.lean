/-
  Offside.Files.Path
  ──────────────────
  Names of files and directories.

  A path is a list of parts under an anchor.  Empty parts and single dots
  carry no meaning and are dropped when a path is read; a part `..` is kept,
  since only the file store can say where it leads.
-/

namespace Offside

/-- What a path starts from. -/
inductive Anchor where
  /-- The working directory. -/
  | working
  /-- The root directory. -/
  | root
  /-- The root directory, written with two slashes. -/
  | doubleRoot
  deriving Repr, DecidableEq

/-- A path. -/
structure Path where
  anchor : Anchor
  parts : List String
  deriving Repr, DecidableEq

namespace Path

/-! ## §1. Reading and writing. -/

/-- The pieces of a text between its slashes. -/
def pieces (cs : List Char) : List (List Char) :=
  cs.foldr push [[]]
where
  /-- Put one character in front of a list of pieces. -/
  push (c : Char) : List (List Char) → List (List Char)
    | [] => [[c]]
    | p :: ps => if c == '/' then [] :: p :: ps else (c :: p) :: ps

/-- The path that a text names. -/
def ofString (s : String) : Path :=
  let cs := s.toList
  let slashes := (cs.takeWhile (· == '/')).length
  let anchor : Anchor :=
    if slashes == 0 then .working else if slashes == 2 then .doubleRoot else .root
  let parts := (pieces cs).filter fun p => !p.isEmpty && p != ['.']
  ⟨anchor, parts.map String.ofList⟩

/-- The text of a path. -/
def toString (p : Path) : String :=
  let joined := "/".intercalate p.parts
  match p.anchor with
  | .working => if p.parts.isEmpty then "." else joined
  | .root => "/" ++ joined
  | .doubleRoot => "//" ++ joined

instance : ToString Path := ⟨Path.toString⟩

/-- The working directory. -/
def here : Path := ⟨.working, []⟩

/-! ## §2. Parts. -/

/-- The path one level up; what has no parts is its own parent. -/
def parent (p : Path) : Path := { p with parts := p.parts.dropLast }

/-- Whether a null character stands in one of the parts. -/
def hasNull (p : Path) : Bool := p.parts.any fun part => part.toList.contains '\x00'

/-- The last part, or an empty name if there is none. -/
def name (p : Path) : String := p.parts.getLast?.getD ""

/-- A path below another one; an anchored path stays what it is. -/
def join (p q : Path) : Path :=
  match q.anchor with
  | .working => { p with parts := p.parts ++ q.parts }
  | _ => q

/-- The entry of a name in a directory. -/
def child (p : Path) (name : String) : Path := { p with parts := p.parts ++ [name] }

/-- What is left of a path below `base`. -/
def relativeTo (p base : Path) : Path :=
  ⟨.working, p.parts.drop base.parts.length⟩

/-! ## §3. Suffixes. -/

/-- A name cut before its last dot; there is no suffix if that dot is the
first or the last character. -/
def splitSuffix (name : String) : String × String :=
  let rev := name.toList.reverse
  let after := rev.takeWhile (· != '.')
  let before := (rev.drop (after.length + 1)).reverse
  if after.isEmpty || before.isEmpty then (name, "")
  else (String.ofList before, String.ofList ('.' :: after.reverse))

/-- The suffix of the last part. -/
def suffix (p : Path) : String := (splitSuffix p.name).2

/-- The path with the suffix of its last part replaced, or with one added if
it has none. -/
def withSuffix (p : Path) (suffix : String) : Path :=
  match p.parts.getLast? with
  | none => p
  | some name =>
    { p with parts := p.parts.dropLast ++ [(splitSuffix name).1 ++ suffix] }

end Path

end Offside
