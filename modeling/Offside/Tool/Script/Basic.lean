/-
  Offside.Tool.Script.Basic
  ─────────────────────────
  Scripts: commands strung together.

  A word of a command is made of pieces, some of which stand for values that
  are known only when the script runs.  A piece may hold a whole script, so
  words and commands are defined together.
-/
import Offside.Tool.Octets

namespace Offside.Tool.Script

/-! ## §1. Parts of commands. -/

/-- What is made of the value of a name. -/
inductive Form where
  | plain
  /-- The number of its bytes. -/
  | length
  /-- Another word if it is missing; `empty` says that empty is missing. -/
  | instead (empty : Bool)
  /-- Another word, which becomes the value, if it is missing. -/
  | assigned (empty : Bool)
  /-- A complaint if it is missing. -/
  | required (empty : Bool)
  /-- Another word unless it is missing. -/
  | given (empty : Bool)
  /-- The value without its shortest or longest start that fits a pattern. -/
  | withoutStart (longest : Bool)
  /-- The value without its shortest or longest end that fits a pattern. -/
  | withoutEnd (longest : Bool)
  /-- Something that nobody understands. -/
  | bad
  deriving Repr, DecidableEq

/-- What a redirection does to a descriptor. -/
inductive Direction where
  | read
  | write
  | append
  | both
  /-- It becomes a copy of another one. -/
  | copy
  deriving Repr, DecidableEq

/-- Which end of its test a loop needs to go on. -/
inductive Wanted where
  | success
  | failure
  deriving Repr, DecidableEq

/-! ## §2. Words and commands. -/

mutual

/-- A piece of a word.  A quoted piece is never cut at blanks. -/
inductive Piece where
  | text (chars : Octets) (quoted : Bool)
  /-- What stands between double quotes. -/
  | enclosed (body : List Piece)
  | value (name : String) (form : Form) (word : List Piece) (quoted : Bool)
  /-- The output of a script. -/
  | output (body : Option Command) (quoted : Bool)
  /-- The value of an arithmetic expression. -/
  | sum (expression : List Piece) (quoted : Bool)

/-- Where the input or an output of a command goes or comes from. -/
inductive Redirection where
  | file (number : Nat) (direction : Direction) (target : List Piece)
  /-- The input is a text of the script, known by its place among them. -/
  | document (number : Nat) (index : Nat)

/-- A command. -/
inductive Command where
  | simple (line : Nat) (assignments : List (String × List Piece)) (words : List (List Piece))
      (redirections : List Redirection)
  /-- The output of each member is the input of the next one. -/
  | pipeline (members : List Command)
  | negated (body : Command)
  | both (first second : Command)
  | either (first second : Command)
  | sequence (first second : Command)
  /-- A command that nobody waits for. -/
  | background (body : Command)
  | redirected (line : Nat) (body : Option Command) (redirections : List Redirection)
  /-- Commands that are run apart. -/
  | apart (line : Nat) (body : Option Command) (redirections : List Redirection)
  | branch (test yes no : Option Command)
  | loop (wanted : Wanted) (test body : Option Command)
  /-- Without words the arguments of the script are gone through. -/
  | each (line : Nat) (name : String) (words : Option (List (List Piece)))
      (body : Option Command)
  | choice (line : Nat) (word : List Piece)
      (cases : List (List (List Piece) × Option Command))
  | define (name : String) (body : Option Command)

end

/-- A word as it is written. -/
abbrev Word := List Piece

/-! ## §3. Names. -/

/-- Whether a byte may start the name of a value. -/
def isNameStart (c : Char) : Bool := c.isAlpha || c == '_'

/-- Whether a byte may stand in the name of a value. -/
def isNameRest (c : Char) : Bool := c.isAlphanum || c == '_'

/-- Whether a text is the name of a value. -/
def isName (s : String) : Bool :=
  match s.toList with
  | c :: rest => isNameStart c && rest.all isNameRest
  | [] => false

/-- A name and the value after its equals sign. -/
def nameAndValue? (cs : Octets) : Option (String × Octets) :=
  let name := cs.takeWhile isNameRest
  match name, cs.drop name.length with
  | c :: _, '=' :: value => if isNameStart c then some (String.ofList name, value) else none
  | _, _ => none

/-- The value that a word assigns to a name, if it does. -/
def assignment? (w : Word) : Option (String × Word) :=
  match w with
  | .text chars false :: rest =>
    (nameAndValue? chars).map fun p =>
      (p.1, if p.2.isEmpty then rest else .text p.2 false :: rest)
  | _ => none

/-- The words that have a meaning of their own where a command starts. -/
def keywords : List String :=
  ["!", "case", "do", "done", "elif", "else", "esac", "fi", "for", "if", "in", "then", "until",
   "while", "\x7b", "\x7d"]

/-- The commands of the shell itself whose failure ends a script. -/
def specialBuiltins : List String :=
  [".", ":", "break", "continue", "eval", "exec", "exit", "export", "local", "readonly", "return",
   "set", "shift", "times", "trap", "unset"]

/-- The other commands of the shell itself. -/
def regularBuiltins : List String :=
  ["[", "alias", "bg", "cd", "chdir", "command", "echo", "false", "fg", "getopts", "hash",
   "jobs", "kill", "printf", "pwd", "read", "test", "true", "type", "ulimit", "umask",
   "unalias", "wait"]

/-- Whether a word names a command of the shell itself. -/
def isBuiltin (name : String) : Bool :=
  specialBuiltins.contains name || regularBuiltins.contains name

/-! ## §4. Faults. -/

/-- Why a script cannot be read on, and on which line. -/
structure Fault where
  message : String
  line : Nat

end Offside.Tool.Script
