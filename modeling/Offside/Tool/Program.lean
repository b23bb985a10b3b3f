/-
  Offside.Tool.Program
  ────────────────────
  Programs as functions.

  A program is called with words and an input and leaves an exit code and two
  outputs behind.  It may leave a part of its input unread, take time, and
  change files.
-/
import Offside.Tool.Octets
import Offside.Tool.Outcome

namespace Offside.Tool

/-! ## §1. Programs. -/

/-- How a program is called. -/
structure Call where
  /-- The name under which the program was started. -/
  name : String
  words : List String
  input : Octets
  files : Files
  /-- The values that are handed down to programs. -/
  environment : List (String × String) := []
  /-- Whether the input is a file, which can be read again from a place
  before. -/
  seekable : Bool := false
  /-- Which of the input (0), the output (1) and the error output (2) are
  closed. -/
  closed : List Nat := []

/-- Something that a program writes. -/
inductive Write where
  | out (cs : Octets)
  | err (cs : Octets)

/-- What a call leaves behind. -/
structure Finish where
  /-- The exit code, or minus the number of the signal that ended it. -/
  code : Int := 0
  /-- What was written, in order. -/
  writes : List Write := []
  /-- What is left of the input, if any of it was read. -/
  left : Option Octets := none
  /-- How long it took; nothing for a program that does not end. -/
  seconds : Option Rat := some 0
  /-- The files, if they were changed. -/
  files : Option Files := none

/-- A program. -/
abbrev Program := Call → Finish

/-- What was written to the output. -/
def Finish.stdout (f : Finish) : Octets :=
  f.writes.flatMap fun w => match w with | .out cs => cs | .err _ => []

/-- What was written to the error output. -/
def Finish.stderr (f : Finish) : Octets :=
  f.writes.flatMap fun w => match w with | .out _ => [] | .err cs => cs

/-! ## §2. Complaints. -/

/-- A complaint of a program as it is printed. -/
def Call.complaint (c : Call) (message : String) : Octets := s!"{c.name}: {message}\n".toList

/-- A call that fails with a message. -/
def Call.fail (c : Call) (message : String) : Finish :=
  { code := 1, writes := [.err (c.complaint message)] }

/-- A call that fails with a message and a hint. -/
def Call.misused (c : Call) (message : String) : Finish :=
  c.fail s!"{message}\nTry '{c.name} --help' for more information."

/-- A call that wrote to an output that is closed fails in the end. -/
def Finish.checked (f : Finish) (c : Call) : Finish :=
  if c.closed.contains 1 && !f.stdout.isEmpty then
    let complaint := c.complaint s!"write error: {FileCause.badDescriptor.text}"
    { f with code := 1, writes := [.err (f.stderr ++ complaint)] }
  else f

/-- A program that looks at its output in the end. -/
def checking (program : Program) : Program := fun c => (program c).checked c

/-! ## §3. Files and the input. -/

/-- The input, if a word names it. -/
def isInputName (word : String) : Bool := word == "-" || word == "/dev/stdin"

/-- The content of a file of the system that is always empty. -/
def isEmptyDevice (word : String) : Bool := word == "/dev/null"

/-- Whether a word names a device of the system, which is no file. -/
def isDevice (word : String) : Bool :=
  isEmptyDevice word || ["/dev/full", "/dev/random", "/dev/stderr", "/dev/stdin", "/dev/stdout",
    "/dev/tty", "/dev/urandom", "/dev/zero"].contains word || word.startsWith "/dev/fd/"

/-- The path that a word names.  A slash at its end says that there must be a
directory, as a dot does. -/
def pathOf (word : String) : Path :=
  let p := Path.ofString (nameOf word)
  match (Path.pieces word.toList).getLast? with
  | some [] | some ['.'] => p.child "."
  | _ => p

/-- The word without the slashes at its end. -/
def withoutSlashes (word : String) : String :=
  String.ofList (word.toList.reverse.dropWhile (· == '/')).reverse

/-- Write the file that a word names, which must not end in a slash. -/
def writeNamed (files : Files) (word : String) (content : ByteArray) : Except FileError Files :=
  if word.endsWith "/" then do
    let _ ← files.locate (pathOf (withoutSlashes word))
    throw (.refused .isDirectory word)
  else Files.unlessRefused (files.write (pathOf word) content)

/-- The bytes of the file that a word names. -/
def Call.read (c : Call) (word : String) : Except FileError Octets :=
  if isEmptyDevice word then .ok []
  else if word.isEmpty then .error (.refused .notFound "")
  else (c.files.read (pathOf word)).map ofBytes

/-- What the words of a call name, one after the other: the bytes, or why
there are none.  The input can be read once. -/
def Call.sources (c : Call) (words : List String) :
    List (String × Except FileError Octets) × Option Octets :=
  let (done, left) := words.foldl step ([], none)
  (done.reverse, left)
where
  /-- Read what one word names. -/
  step (s : List (String × Except FileError Octets) × Option Octets) (word : String) :
      List (String × Except FileError Octets) × Option Octets :=
    if isInputName word then
      if c.closed.contains 0 then
        let cause := if word == "-" then FileCause.badDescriptor else .notFound
        ((word, .error (.refused cause word)) :: s.1, s.2)
      else ((word, .ok (s.2.getD c.input)) :: s.1, some [])
    else ((word, c.read word) :: s.1, s.2)

/-- Whether a call was to read an input that is closed. -/
def Call.lostInput (c : Call) (sources : List (String × Except FileError Octets)) : Bool :=
  c.closed.contains 0 && sources.any fun s => s.1 == "-"

end Offside.Tool
