/-
  Offside.Tool.Script.State
  ─────────────────────────
  A script at work.

  What a running script can change is of two kinds.  Values, arguments and
  descriptors belong to one shell, and a part of a script that is run apart
  works on a copy of them.  Files, open channels and the time that has passed
  are there for all.
-/
import Offside.Tool.Program
import Offside.Tool.Script.Basic

namespace Offside.Tool.Script

/-! ## §1. Channels. -/

/-- Where bytes come from or go to. -/
inductive Channel where
  | source (rest : Octets) (seekable : Bool)
  | sink (bytes : ByteArray)
  /-- One of the two outputs of the script itself. -/
  | outlet (error : Bool)
  /-- Nothing is read from it, and what is written to it is lost. -/
  | nothing
  /-- A directory, from which nothing can be read. -/
  | directory
  /-- A file that is written from a place on, or at its end. -/
  | file (path : Path) (place : Nat) (append : Bool)

/-! ## §2. The state. -/

/-- What a command name leads to. -/
inductive Resolved where
  /-- There is no file. -/
  | absent (cause : FileCause)
  /-- There is something that must not be started. -/
  | forbidden
  /-- There is a file that may be started, but the program that it names
  cannot be. -/
  | refused (cause : FileCause)
  /-- The file does not say what it is written in, and may look like no
  text. -/
  | noFormat (binary : Bool)
  | ready (program : Program)

/-- The value of a name. -/
structure Variable where
  value : Option String
  exported : Bool := false
  fixed : Bool := false

/-- What is passed over until a loop or a function has ended. -/
inductive Skip where
  | none
  /-- So many loops are left. -/
  | leave (loops : Nat)
  /-- All but the last of so many loops are left. -/
  | next (loops : Nat)
  /-- The function is left. -/
  | function
  deriving DecidableEq

/-- What belongs to one shell. -/
structure Frame where
  /-- The name of the script. -/
  name : String
  arguments : List String := []
  values : List (String × Variable) := []
  functions : List (String × Option Command) := []
  status : Nat := 0
  /-- The line that complaints name. -/
  line : Nat := 0
  /-- The command of the shell that is at work. -/
  builtin : Option String := none
  /-- The channel of each open descriptor. -/
  descriptors : List (Nat × Nat) := [(0, 0), (1, 1), (2, 2)]
  skip : Skip := .none
  /-- How many loops and functions are under way. -/
  loops : Nat := 0
  calls : Nat := 0
  /-- The options that are set, by their letters. -/
  options : List Char := []
  /-- What is run when a signal arrives, or at the end. -/
  traps : List (Nat × String) := []
  /-- The values that a function hides, with what they were before. -/
  hidden : List (String × Option Variable) := []
  /-- How many letters of a word the option reader has taken. -/
  letters : Nat := 0
  /-- The number of the last job. -/
  lastJob : Option Nat := none
  /-- The mask of new files. -/
  mask : Nat := 18
  /-- Whether somebody looks at the exit code. -/
  tested : Bool := false
  /-- The names of programs whose places are known. -/
  known : List String := []
  /-- How many shells are around this one. -/
  nested : Nat := 0

/-- The later of two moments. -/
def later (a b : Rat) : Rat := if b.blt a then a else b

/-- A command that nobody waits for. -/
structure Job where
  number : Nat
  /-- Its place in the table of jobs. -/
  place : Nat
  /-- What is to be run, from which moment on; nothing once it was run. -/
  body : Option (Command × Frame)
  start : Rat
  finish : Option Rat := none
  status : Nat := 0
  /-- Whether the shell that started it has ended. -/
  orphan : Bool := false

/-- A script at work. -/
structure State extends Frame where
  files : Files
  /-- All channels that were ever opened. -/
  channels : Array Channel
  /-- What the script itself has written, the latest first. -/
  log : List Write := []
  /-- The texts of the script. -/
  documents : Array Word := #[]
  /-- The time that has passed. -/
  clock : Rat := 0
  /-- Whether something could not be written to the output. -/
  unwritten : Bool := false
  /-- How many commands may still be run. -/
  budget : Nat
  jobs : List Job := []
  /-- The number of the next job. -/
  nextJob : Nat := 1001
  /-- The exit code of the last script whose output was taken. -/
  taken : Nat := 0
  /-- Signals that were sent to the script by parts that ran apart. -/
  pending : List Nat := []

/-- Why a script ends before its last command. -/
inductive Stop where
  /-- It ends with its exit code. -/
  | exit
  /-- It ends with a complaint. -/
  | fault
  | signal (number : Nat)
  /-- It does not end. -/
  | endless
  deriving DecidableEq

/-- Something that a script does. -/
abbrev Run := ExceptT Stop (StateM State)

/-- What does not change while a script runs. -/
structure Context where
  /-- What the path that a word names leads to. -/
  find : Files → String → Resolved
  /-- Run a script file. -/
  script : Program

/-- Do something and see how it ends. -/
def attempt {α : Type} (body : Run α) : Run (Except Stop α) :=
  ExceptT.mk do return .ok (← body.run)

/-! ## §3. Writing. -/

/-- The channel of a descriptor. -/
def State.channel? (s : State) (number : Nat) : Option Nat :=
  (s.descriptors.find? fun d => d.1 == number).map (·.2)

/-- A file with bytes written into it from a place on. -/
def overwritten (before : ByteArray) (place : Nat) (cs : Octets) : ByteArray :=
  let front := before.extract 0 place
  let front := extend front (List.replicate (place - front.size) '\x00')
  extend front cs ++ before.extract (place + cs.length) before.size

/-- Write to a channel. -/
def State.writeTo (s : State) (index : Nat) (cs : Octets) : State :=
  match s.channels[index]? with
  | some (.sink _) =>
    { s with channels := s.channels.modify index fun c =>
        match c with
        | .sink bytes => .sink (extend bytes cs)
        | c => c }
  | some (.outlet error) => { s with log := (if error then .err cs else .out cs) :: s.log }
  | some (.file path place append) =>
    let before := (s.files.read path).toOption.getD .empty
    let place := if append then before.size else place
    match Files.unlessRefused (s.files.write path (overwritten before place cs)) with
    | .ok files =>
      let moved : Channel := .file path (place + cs.length) append
      { s with files, channels := s.channels.setIfInBounds index moved }
    | .error _ => s
  | _ => s

/-- Whether a descriptor can be written to. -/
def State.isWritable (s : State) (number : Nat) : Bool :=
  match (s.channel? number).bind fun i => s.channels[i]? with
  | some (.sink _) | some (.outlet _) | some .nothing | some (.file ..) => true
  | _ => false

/-- The first descriptors that cannot be used. -/
def State.closed (s : State) : List Nat :=
  (if (s.channel? 0).isNone then [0] else []) ++ [1, 2].filter fun n => !s.isWritable n

/-- Write to a descriptor.  It is noted if the output cannot be written to. -/
def write (number : Nat) (cs : Octets) : Run PUnit :=
  if cs.isEmpty then return
  else modify fun s =>
    match s.channel? number with
    | some index =>
      if s.isWritable number then s.writeTo index cs
      else { s with unwritten := s.unwritten || number == 1 }
    | none => { s with unwritten := s.unwritten || number == 1 }

/-- What is left on the input. -/
def State.input (s : State) : Octets :=
  match (s.channel? 0).bind fun i => s.channels[i]? with
  | some (.source rest _) => rest
  | _ => []

/-- Whether the input can be read again from a place before. -/
def State.isSeekable (s : State) : Bool :=
  match (s.channel? 0).bind fun i => s.channels[i]? with
  | some (.source _ seekable) => seekable
  | _ => false

/-- The state with something else left on the input. -/
def State.withInput (s : State) (rest : Octets) : State :=
  match s.channel? 0 with
  | some index =>
    { s with channels := s.channels.modify index fun c =>
        match c with
        | .source _ seekable => .source rest seekable
        | c => c }
  | none => s

/-- A new channel. -/
def openChannel (c : Channel) : Run Nat := do
  let index := (← get).channels.size
  modify fun s => { s with channels := s.channels.push c }
  return index

/-- Give a descriptor a channel, or close it. -/
def State.connect (s : State) (number : Nat) (index : Option Nat) : State :=
  let others := s.descriptors.filter fun d => d.1 != number
  { s with descriptors := match index with
      | some index => (number, index) :: others
      | none => others }

/-- The first place in the table of jobs that none of some jobs has. -/
def freePlace (jobs : List Job) : Nat :=
  ((List.range jobs.length).find? fun n => !jobs.any fun j => j.place == n + 1).getD jobs.length + 1

/-- The job that a word such as `%1` stands for; a word without a number
stands for the latest one. -/
def State.jobOf? (s : State) (word : String) : Option Job :=
  let mine := s.jobs.filter fun j => !j.orphan
  match word.toList with
  | ['%'] | ['%', '%'] | ['%', '+'] => mine.getLast?
  | ['%', '-'] => mine.dropLast.getLast?
  | '%' :: digits =>
    if digits.all Char.isDigit then
      mine.find? fun j => j.place == digits.foldl (fun n c => 10 * n + (c.toNat - 48)) 0
    else none
  | _ => none

/-! ## §4. Complaints. -/

/-- Complain on the error output. -/
def complain (message : String) : Run PUnit := do
  let s ← get
  let command := match s.builtin with
    | some name => s!"{name}: "
    | none => ""
  write 2 s!"{s.name}: {s.line}: {command}{message}\n".toList

/-- Complain and give up. -/
def failWith {α : Type} (message : String) : Run α := do
  complain message
  modify fun s => { s with status := 2 }
  throw .fault

/-- Set the exit code. -/
def setStatus (n : Nat) : Run PUnit := modify fun s => { s with status := n }

/-! ## §5. Values. -/

/-- The variable of a name. -/
def Frame.held? (f : Frame) (name : String) : Option Variable :=
  (f.values.find? fun v => v.1 == name).map (·.2)

/-- The value of a name. -/
def Frame.value? (f : Frame) (name : String) : Option String :=
  (f.held? name).bind (·.value)

/-- The frame with a variable for a name, or without one. -/
def Frame.withVariable (f : Frame) (name : String) (v : Option Variable) : Frame :=
  let others := f.values.filter fun v => v.1 != name
  { f with values := match v with
      | some v => (name, v) :: others
      | none => others }

/-- The size of a value at which a script counts as one that does not end. -/
def maxValue : Nat := Nat.pow 2 22

/-- Give a name a value. -/
def assign (name value : String) : Run PUnit := do
  let v := ((← get).held? name).getD ⟨none, false, false⟩
  if v.fixed then failWith s!"{name}: is read only"
  if maxValue < value.utf8ByteSize then throw .endless
  modify fun s =>
    let v := { v with value := some value, exported := v.exported || s.options.contains 'a' }
    let f := s.toFrame.withVariable name (some v)
    { s with toFrame :=
        if name == "OPTIND" then { f with letters := 0 }
        else if name == "PATH" then { f with known := [] }
        else f }

/-- The values that are handed down to programs. -/
def Frame.environment (f : Frame) : List (String × String) :=
  f.values.reverse.filterMap fun v =>
    match v.2 with
    | ⟨some value, true, _⟩ => some (v.1, value)
    | _ => none

/-- The bytes at which values are cut into fields. -/
def Frame.separators (f : Frame) : Octets :=
  match f.value? "IFS" with
  | some s => s.toList
  | none => [' ', '\t', '\n']

/-- Whether an option is set. -/
def Frame.has (f : Frame) (letter : Char) : Bool := f.options.contains letter

/-! ## §6. Running apart. -/

/-- Run something on a copy of the frame, with the traps and jobs of a shell
of its own.  What it leaves behind is its exit code, or the reason why
everything ends. -/
def apart (prepare : State → State) (body : Run PUnit) : Run PUnit := do
  let before ← get
  let ignored := before.traps.filter fun t => t.2.isEmpty
  set (prepare { before with traps := ignored, jobs := [], nested := before.nested + 1 })
  let result ← attempt body
  let after ← get
  set { after with
    toFrame := { before.toFrame with status := after.status }
    files := { after.files with home := before.files.home }
    jobs := before.jobs ++ after.jobs.map orphaned }
  match result with
  | .error .endless => throw .endless
  | .error (.signal n) => throw (.signal n)
  | _ => return
where
  /-- A job whose shell has ended. -/
  orphaned (j : Job) : Job := { j with orphan := true }

end Offside.Tool.Script
