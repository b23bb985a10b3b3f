/-
  Offside.Tool.Script.Expand
  ──────────────────────────
  What words stand for.

  A word is first written out as a row of marks: bytes that remember where
  they came from, and the gaps between arguments.  The row is then cut into
  fields, and a field that is a pattern is replaced by the file names that
  fit it.  Words can hold scripts, so everything here is given a way to run
  commands.
-/
import Offside.Tool.Script.Pattern
import Offside.Tool.Script.Reader
import Offside.Tool.Script.Sum

namespace Offside.Tool.Script

/-- A way to run commands. -/
abbrev Runner := Command → Run PUnit

/-! ## §1. Scripts inside scripts. -/

/-- Run a command that may be missing. -/
def runOptional (self : Runner) : Option Command → Run PUnit
  | some c => self c
  | none => return

/-- Run complete commands for as long as there are any. -/
def runCommands (self : Runner) : Nat → Bool → Reading → Run PUnit
  | 0, _, _ => return
  | fuel + 1, ran, r => do
    match nextCommand.run { r with documents := (← get).documents } with
    | .error fault =>
      modify fun s => { s with line := fault.line }
      failWith fault.message
    | .ok ((command, ended), r) =>
      if ended then
        if !ran then setStatus 0
        return
      modify fun s => { s with documents := r.documents }
      runOptional self command
      if (← get).skip == .none then runCommands self fuel (ran || command.isSome) r else return

/-- Run the script that a text holds. -/
def runText (self : Runner) (text : Octets) : Run PUnit :=
  runCommands self (text.length + 1) false { rest := text }

/-- Run what was set to be run at the end, whichever way the end came. -/
def withEnd (self : Runner) (body : Run PUnit) : Run PUnit := do
  match ← attempt body with
  | .error .endless => throw .endless
  | .error (.signal n) => throw (.signal n)
  | result =>
    let s ← get
    let trap := s.traps.find? fun t => t.1 == 0
    match trap with
    | some (_, text) =>
      set { s with traps := s.traps.filter (fun t => t.1 != 0), skip := .none, builtin := none }
      match ← attempt (runText self text.toList) with
      | .ok _ =>
        setStatus s.status
        match result with
        | .error e => throw e
        | .ok _ => return
      | .error e => throw e
    | none =>
      match result with
      | .error e => throw e
      | .ok _ => return

/-- The state with nothing on the input. -/
def State.withoutInput (s : State) : State :=
  { s.connect 0 (some s.channels.size) with channels := s.channels.push .nothing }

/-- Run a command that nobody waited for, from the moment on at which it was
started. -/
def settleJob (self : Runner) (j : Job) : Run Job := do
  match j.body with
  | none => return j
  | some (command, frame) =>
    let now ← get
    let prepare (s : State) : State :=
      State.withoutInput { s with toFrame := frame, clock := j.start }
    let result ← attempt (apart prepare (withEnd self (self command)))
    let after ← get
    set { after with toFrame := now.toFrame, clock := now.clock }
    let finish := match result with
      | .error .endless => none
      | _ => some after.clock
    return { j with body := none, finish, status := after.status }

/-- Run all commands that nobody waited for, and wait for them; those of
other shells too if `all`. -/
def settleJobs (self : Runner) (all : Bool) : Run PUnit := do
  let (mine, others) := (← get).jobs.partition fun j => all || !j.orphan
  modify fun s => { s with jobs := others }
  let done ← mine.mapM (settleJob self)
  if done.any fun j => j.finish.isNone then throw .endless
  modify fun s => { s with
    jobs := done ++ s.jobs
    clock := done.foldl (fun t j => later t (j.finish.getD t)) s.clock }

/-- The output of something that is run apart. -/
def capture (self : Runner) (body : Run PUnit) : Run Octets := do
  let index ← openChannel (.sink .empty)
  apart (fun s => s.connect 1 (some index)) do
    let result ← attempt (withEnd self body)
    settleJobs self true
    match result with
    | .error e => throw e
    | .ok _ => return
  match (← get).channels[index]? with
  | some (.sink bytes) => return ofBytes bytes
  | _ => return []

/-! ## §2. Values. -/

/-- The number by which a script knows itself. -/
def ownNumber : String := "1"

/-- The letters of the options, in the order in which they are shown. -/
def shownOptions : List Char := "ubaCEVvxsnmiIfe".toList

/-- The value of a name, or of a byte that names a value of the shell. -/
def State.lookUp (s : State) (name : String) : Option String :=
  match name with
  | "?" => some (toString s.status)
  | "$" => some ownNumber
  | "!" => s.lastJob.map toString
  | "#" => some (toString s.arguments.length)
  | "-" => some (String.ofList (shownOptions.filter s.options.contains))
  | "0" => some s.name
  | _ =>
    if name.toList.all Char.isDigit then
      let n := digitsValue 10 (name.toList.filterMap digit?)
      (s.arguments.drop (n - 1)).head?
    else s.value? name

/-- What stands between the arguments when they are made one text. -/
def State.joint (s : State) (name : String) : String :=
  if name == "@" then " "
  else
    match s.value? "IFS" with
    | none => " "
    | some "" => ""
    | some seps => String.ofList (seps.toList.take 1)

/-! ## §3. Marks. -/

/-- A part of a word that was written out. -/
inductive Mark where
  | cell (c : Cell)
  /-- Here one argument ends and the next one starts. -/
  | gap
  /-- Something quoted, which may be empty. -/
  | quote

/-- The marks of a text. -/
def marksOf (quoted splits : Bool) (cs : Octets) : List Mark :=
  cs.map fun char => .cell ⟨char, quoted, splits⟩

/-- The marks of the arguments of a script. -/
def argumentMarks (quoted : Bool) (arguments : List String) : List Mark :=
  let one (a : String) : List Mark :=
    if quoted then .quote :: marksOf true false a.toList else marksOf false true a.toList
  match arguments with
  | [] => []
  | a :: more => one a ++ more.flatMap fun a => .gap :: one a

/-- The cells among marks. -/
def cellsOf (ms : List Mark) : List Cell :=
  ms.filterMap fun m => match m with | .cell c => some c | _ => none

/-- The text of marks. -/
def textOf (ms : List Mark) : String := String.ofList ((cellsOf ms).map (·.char))

/-- Whether a word between quotes holds nothing but the arguments. -/
def isArguments (body : List Piece) : Bool :=
  match body with
  | [.value "@" .plain _ _] => true
  | _ => false

/-- What is said of a value that is missing. -/
def missingText (empty : Bool) : String :=
  if empty then "parameter not set or null" else "parameter not set"

/-- Drop the newlines at the end. -/
def withoutLastLines (cs : Octets) : Octets := (cs.reverse.dropWhile (· == '\n')).reverse

/-- Write out a word.  `splits` says whether its own text may be cut into
fields, and `fields` whether there are to be fields at all. -/
def marks (self : Runner) (fields : Bool) : Nat → Bool → Word → Run (List Mark)
  | 0, _, _ => return []
  | _, _, [] => return []
  | fuel + 1, splits, piece :: rest => do
    let first ← one fuel splits piece
    return first ++ (← marks self fields fuel splits rest)
where
  /-- Write out one piece. -/
  one (fuel : Nat) (splits : Bool) : Piece → Run (List Mark)
    | .text [] quoted => return if quoted then [.quote] else []
    | .text cs quoted =>
      let ms := marksOf quoted (splits && !quoted) cs
      return if quoted then .quote :: ms else ms
    | .enclosed body => do
      let ms ← marks self fields fuel false body
      if fields && isArguments body && (← get).arguments.isEmpty then return []
      else return .quote :: ms
    | .output body quoted => do
      let before := (← get).status
      let cs ← capture self (runOptional self body)
      modify fun s => { s with taken := s.status, status := before }
      return marksOf quoted (!quoted) ((withoutLastLines cs).filter (· != '\x00'))
    | .sum expression quoted => do
      let text := textOf (← marks self false fuel false expression)
      match sumOf (← get).lookUp text.toList with
      | .error e => failWith (e.message text)
      | .ok (n, assigned) =>
        for a in assigned.reverse do
          assign a.1 (toString a.2)
        return marksOf quoted (!quoted) (toString n).toList
    | .value name form word quoted => do
      let s ← get
      let isList := name == "@" || name == "*"
      let found : Option String :=
        if isList then
          if s.arguments.isEmpty then none else some ((s.joint name).intercalate s.arguments)
        else s.lookUp name
      let plain (v : String) : List Mark :=
        if isList && fields && !(quoted && name == "*") then argumentMarks quoted s.arguments
        else marksOf quoted (!quoted) v.toList
      let checked : Run String :=
        match found with
        | some v => return v
        | none =>
          if s.has 'u' && !isList then failWith s!"{name}: {missingText false}"
          else return ""
      let isMissing (empty : Bool) : Bool :=
        match found with
        | none => true
        | some v => empty && v.isEmpty
      match form with
      | .plain => return plain (← checked)
      | .length =>
        let v ← checked
        return marksOf quoted (!quoted) (toString v.length).toList
      | .instead empty =>
        if isMissing empty then marks self fields fuel (!quoted) word
        else return plain (found.getD "")
      | .given empty =>
        if isMissing empty then return [] else marks self fields fuel (!quoted) word
      | .assigned empty =>
        if isMissing empty then
          let v := textOf (← marks self false fuel false word)
          if !isName name then failWith s!"{name}: bad variable name"
          assign name v
          return marksOf quoted (!quoted) v.toList
        else return plain (found.getD "")
      | .required empty =>
        if isMissing empty then
          let text := textOf (← marks self false fuel false word)
          let message := if word.isEmpty then missingText empty else text
          failWith s!"{name}: {message}"
        else return plain (found.getD "")
      | .withoutStart longest =>
        let v ← checked
        let ps := pattern (cellsOf (← marks self false fuel false word))
        return marksOf quoted (!quoted) (withoutStart longest ps v.toList)
      | .withoutEnd longest =>
        let v ← checked
        let ps := pattern (cellsOf (← marks self false fuel false word))
        return marksOf quoted (!quoted) (withoutEnd longest ps v.toList)
      | .bad => failWith "Bad substitution"

/-! ## §4. Fields. -/

/-- Fields under way: those that are complete, the latest first, and the one
that is not, its cells in reverse. -/
structure Fields where
  done : List (List Cell) := []
  current : Option (List Cell) := none
  /-- The last field was ended by a blank. -/
  blank : Bool := false

/-- End the field under way. -/
def Fields.close (f : Fields) : Fields :=
  match f.current with
  | none => f
  | some cs => { f with done := cs.reverse :: f.done, current := none }

/-- Add a mark.  A blank among the separators only ends a field; any other
separator ends one even if it is empty, unless a blank has just done so. -/
def Fields.add (separators : Octets) (f : Fields) : Mark → Fields
  | .gap => { f.close with blank := false }
  | .quote => { f with current := some (f.current.getD []), blank := false }
  | .cell c =>
    if c.splits && separators.contains c.char then
      if c.char == ' ' || c.char == '\t' || c.char == '\n' then
        if f.current.isSome then { f.close with blank := true } else f
      else if f.current.isSome then { f.close with blank := false }
      else if f.blank then { f with blank := false }
      else { f with done := [] :: f.done }
    else { f with current := some (c :: f.current.getD []), blank := false }

/-- The fields of marks. -/
def fieldsOf (separators : Octets) (ms : List Mark) : List (List Cell) :=
  (ms.foldl (Fields.add separators) {}).close.done.reverse

/-- How deep words may hold words. -/
def wordDepth : Nat := 10000

/-- **The fields that a word stands for.** -/
def fields (self : Runner) (w : Word) : Run (List String) := do
  let ms ← marks self true wordDepth false w
  let s ← get
  return (fieldsOf s.separators ms).flatMap fun cells =>
    if s.has 'f' then [String.ofList (plain cells)] else fileNames s.files cells

/-- A word as one text. -/
def joined (self : Runner) (w : Word) : Run String := do
  return textOf (← marks self false wordDepth false w)

/-- A word as a pattern. -/
def wordPattern (self : Runner) (w : Word) : Run (List PatternPart) := do
  return pattern (cellsOf (← marks self false wordDepth false w))

end Offside.Tool.Script
