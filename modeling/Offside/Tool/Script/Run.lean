/-
  Offside.Tool.Script.Run
  ───────────────────────
  Running scripts, and the program `sh`.

  One step runs one command and leaves the commands inside it to a runner,
  so that running is a step whose runner goes one level less deep.  Loops
  and levels are bounded; a script that reaches the bounds counts as one
  that does not end.
-/
import Offside.Tool.Script.Builtins

namespace Offside.Tool.Script

/-! ## §1. Redirections. -/

/-- A redirection whose words are known. -/
inductive Plan where
  | file (number : Nat) (direction : Direction) (target : String)
  | document (number : Nat) (index : Nat)

/-- Find out what a redirection asks for. -/
def planned (self : Runner) : Redirection → Run Plan
  | .file number direction w => do
    let target ← joined self w
    if direction == .copy then
      match target.toList with
      | [c] => if c.isDigit || c == '-' then pure () else failWith "Syntax error: Bad fd number"
      | _ => failWith "Syntax error: Bad fd number"
    return .file number direction target
  | .document number index => return .document number index

/-- The descriptor that a file name stands for, if it stands for one. -/
def descriptorOf? (target : String) : Option Nat :=
  match target with
  | "/dev/stdin" => some 0
  | "/dev/stdout" => some 1
  | "/dev/stderr" => some 2
  | _ =>
    if target.startsWith "/dev/fd/" then number? (String.ofList (target.toList.drop 8)) else none

/-- Open a file for reading. -/
def openForReading (s : State) (target : String) : Except String Channel :=
  let path := pathOf target
  if target.isEmpty then .error s!"cannot open {target}: No such file"
  else if s.files.isDirectory path then .ok .directory
  else
    match s.files.read path with
    | .ok bytes => .ok (.source (ofBytes bytes) true)
    | .error (.refused .notFound _) | .error (.refused .notDirectory _) =>
      .error s!"cannot open {target}: No such file"
    | .error e => .error s!"cannot open {target}: {e.reason}"

/-- Open a file for writing. -/
def openForWriting (s : State) (append : Bool) (target : String) :
    Except String (Channel × Files) :=
  let path := pathOf target
  let refused (e : FileError) : String :=
    match e with
    | .refused .notFound _ | .refused .notDirectory _ =>
      s!"cannot create {target}: Directory nonexistent"
    | e => s!"cannot create {target}: {e.reason}"
  if target.isEmpty then .error s!"cannot create {target}: Directory nonexistent"
  else if s.has 'C' && !append && s.files.isFile path then
    .error s!"cannot create {target}: File exists"
  else
    let before := if append then (s.files.read path).toOption.getD .empty else .empty
    match writeNamed s.files target before with
    | .ok files => .ok (.file path 0 append, files)
    | .error e => .error (refused e)

/-- Carry out a redirection, or say why it cannot be; nothing is said of a
document whose expansion has complained already. -/
def carryOut (self : Runner) : Plan → Run (Option String)
  | .document number index => do
    let w := (← get).documents.getD index []
    match ← attempt (joined self w) with
    | .ok text =>
      let index ← openChannel (.source text.toList true)
      modify fun s => s.connect number (some index)
      return none
    | .error .fault => return some ""
    | .error e => throw e
  | .file number .copy target => do
    if target == "-" then
      modify fun s => s.connect number none
      return none
    else
      let other := (number? target).getD 0
      match (← get).channel? other with
      | some index =>
        modify fun s => s.connect number (some index)
        return none
      | none => return some s!"{other}: Bad file descriptor"
  | .file number direction target => do
    let s ← get
    if target == "/dev/null" then
      let index ← openChannel .nothing
      modify fun s => s.connect number (some index)
      return none
    else
      match descriptorOf? target with
      | some other =>
        match s.channel? other with
        | some index =>
          modify fun s => s.connect number (some index)
          return none
        | none =>
          let verb := if direction == .read then "open" else "create"
          return some s!"cannot {verb} {target}: No such file"
      | none =>
        if direction == .both then
          match openForWriting s true target with
          | .ok (_, files) => modify fun s => { s with files }
          | .error _ => pure ()
        let s ← get
        if direction == .read || direction == .both then
          match openForReading s target with
          | .ok channel =>
            let index ← openChannel channel
            modify fun s => s.connect number (some index)
            return none
          | .error message => return some message
        else
          match openForWriting s (direction == .append) target with
          | .ok (channel, files) =>
            let index ← openChannel channel
            modify fun s => { s.connect number (some index) with files }
            return none
          | .error message => return some message

/-- Carry out redirections one after the other, up to one that cannot be. -/
def carryOutAll (self : Runner) : List Plan → Run (Option String)
  | [] => return none
  | p :: more => do
    match ← carryOut self p with
    | none => carryOutAll self more
    | some message => return some message

/-- The descriptor that a redirection is about. -/
def Plan.number : Plan → Nat
  | .document number _ | .file number _ _ => number

/-- The descriptors of some redirections are what they were before. -/
def State.restored (s : State) (before : List (Nat × Nat)) (plans : List Plan) : State :=
  plans.foldl (fun s p =>
    s.connect p.number ((before.find? fun d => d.1 == p.number).map (·.2))) s

/-- Run something under redirections; the answer is whether it was run.
Unless they are `kept`, the descriptors that they are about are then what they
were before. -/
def under (self : Runner) (rs : List Redirection) (kept : Bool) (body : Run PUnit) : Run Bool := do
  let plans ← rs.mapM (planned self)
  let before := (← get).descriptors
  match ← carryOutAll self plans with
  | some message =>
    if !message.isEmpty then complain message
    modify fun s => { s.restored before plans with status := 2 }
    return false
  | none =>
    let result ← attempt body
    if !kept then modify fun s => s.restored before plans
    match result with
    | .ok _ => return true
    | .error e => throw e

/-! ## §2. Programs. -/

/-- The path of a name in a directory of a search path. -/
def pathIn (directory name : String) : String :=
  if directory.isEmpty then name else directory ++ "/" ++ name

/-- What is known of a name after one more directory of a search path, in
which it leads to something that cannot be run.  What may be started counts
more than what is not, and a reason more than that nothing is there. -/
def knownAfter (past next : Resolved × String) : Resolved × String :=
  match past.1, next.1 with
  | .refused _, .forbidden => (.refused .denied, past.2)
  | .refused first, .absent cause | .refused first, .refused cause =>
    (.refused (if cause.isMissing then first else cause), past.2)
  | _, .absent cause => if cause.isMissing then past else (next.1, past.2)
  | _, .refused cause => (.refused (if cause.isMissing then .notFound else cause), next.2)
  | _, _ => next

/-- What a path leads to for the shell, which reads files that do not say what
they are written in, unless they look like no text. -/
def readable : Resolved → Resolved
  | .noFormat true => .refused .notExecutable
  | r => r

/-- What a name leads to in the directories of a search path: the first
program, or what is known if there is none. -/
def search (find : Files → String → Resolved) (files : Files) (name : String) :
    List String → Resolved × String → Resolved × String
  | [], past => past
  | directory :: more, past =>
    let path := pathIn directory name
    match readable (find files path) with
    | .ready program => (.ready program, path)
    | .noFormat binary => (.noFormat binary, path)
    | next => search find files name more (knownAfter past (next, path))

/-- What a command name leads to, and the path on which it was found. -/
def State.program (s : State) (x : Context) (name : String) : Resolved × String :=
  if name.contains '/' then (readable (x.find s.files name), name)
  else
    let directories := ((s.value? "PATH").getD "").splitOn ":"
    search x.find s.files name directories (.absent .notFound, name)

/-- The path that stands for a command name: itself if it has a slash and
something is there, or else the first one in the search path that may be
started. -/
def State.place? (s : State) (x : Context) (name : String) : Option String :=
  let directories := ((s.value? "PATH").getD "").splitOn ":"
  let isThere (path : String) : Bool :=
    match x.find s.files path with
    | .absent _ => false
    | .forbidden => name.contains '/'
    | _ => true
  (if name.contains '/' then [name] else directories.map (pathIn · name)).find? isThere

/-- Know where a program is. -/
def remember (name : String) : Run PUnit :=
  modify fun s =>
    if name.contains '/' || s.known.contains name then s
    else { s with known := s.known ++ [name] }

/-- Keep what a program leaves behind. -/
def keep (f : Finish) : Run PUnit := do
  for w in f.writes do
    match w with
    | .out cs => write 1 cs
    | .err cs => write 2 cs
  modify fun s =>
    let s := match f.left with
      | some rest => s.withInput rest
      | none => s
    let s := match f.files with
      | some files => { s with files := { files with home := s.files.home } }
      | none => s
    { s with status := if f.code < 0 then 128 + f.code.natAbs else f.code.toNat % 256 }
  match f.seconds with
  | none => throw .endless
  | some t => modify fun s => { s with clock := s.clock + t }

/-- Why a program is not started, in the words of the shell. -/
def startReason (cause : FileCause) : String :=
  if cause.isMissing then "not found" else cause.text

/-- Start a program; `replacing` says that the script ends with it. -/
def start (x : Context) (replacing : Bool) (name : String) (words : List String) : Run PUnit := do
  let s ← get
  let call : Call :=
    { name, words, input := s.input, files := s.files, environment := s.environment
      seekable := s.isSeekable, closed := s.closed }
  let run (f : Finish) : Run PUnit := do
    remember name
    keep f
    if replacing then modify fun s => { s with traps := [] }
    if f.code < 0 then
      if replacing then throw (.signal f.code.natAbs)
      write 2 (signalText f.code.natAbs).toList
  let missing (text : String) (status : Nat) : Run PUnit := do
    complain s!"{name}: {text}"
    setStatus status
  match s.program x name with
  | (.ready program, _) => run (program call)
  | (.noFormat _, path) => run (x.script { call with name := path, words := path :: words })
  | (.forbidden, _) =>
    missing "Permission denied" (if replacing || name.contains '/' then 126 else 127)
  | (.absent cause, _) =>
    if name.isEmpty then missing "Permission denied" 127 else missing (startReason cause) 127
  | (.refused cause, _) =>
    remember name
    missing (startReason cause) (if cause == .denied || cause == .notExecutable then 126 else 127)
  if replacing then throw .exit

/-! ## §3. Commands of the shell. -/

/-- What a name is, in words. -/
def describe (x : Context) (s : State) (brief : Bool) (name : String) : Option String :=
  let say (text : String) : Option String := some (if brief then name else s!"{name} is {text}")
  if keywords.contains name then say "a shell keyword"
  else if specialBuiltins.contains name then say "a special shell builtin"
  else if s.functions.any fun f => f.1 == name then say "a shell function"
  else if regularBuiltins.contains name then say "a shell builtin"
  else
    let known := if s.known.contains name then "a tracked alias for " else ""
    (s.place? x name).map fun path => if brief then path else s!"{name} is {known}{path}"

/-- Know where a program is, if a name is not something else. -/
def rememberProgram (name : String) : Run PUnit := do
  let s ← get
  if !(keywords.contains name || isBuiltin name || s.functions.any fun f => f.1 == name) then
    remember name

/-- Know where programs are, or show what is known. -/
def hash (x : Context) (words : List String) : Run PUnit := do
  let (options, names) ← lettersOf ['r', 'v'] [] words
  setStatus 0
  if options.any fun o => o.1 == 'r' then modify fun s => { s with known := [] }
  else if names.isEmpty then
    let s ← get
    for name in s.known do
      write 1 ((s.place? x name).getD name ++ "\n").toList
  else
    for name in names do
      let s ← get
      if (describe x s true name).isSome then rememberProgram name
      else
        let cause := match (s.program x name).1 with
          | .forbidden => .denied
          | .absent cause => cause
          | _ => FileCause.notFound
        complain s!"{name}: {startReason cause}"
        setStatus 1

/-- Say what names are. -/
def describeAll (x : Context) (names : List String) : Run PUnit := do
  setStatus 0
  for name in names do
    match describe x (← get) false name with
    | some text =>
      rememberProgram name
      write 1 (text ++ "\n").toList
    | none =>
      write 1 s!"{name}: not found\n".toList
      setStatus 127

/-- The bytes of a script that a word names; a directory is an empty one. -/
def scriptText? (files : Files) (word : String) : Option ByteArray :=
  if word.isEmpty then none
  else if files.isDirectory (pathOf word) then some .empty
  else (files.read (pathOf word)).toOption

/-- Run a script file as a part of this script. -/
def runFile (self : Runner) (words : List String) : Run PUnit := do
  match words with
  | [] => setStatus 0
  | file :: _ =>
    let s ← get
    let inPath := ((s.value? "PATH").getD "").splitOn ":" |>.map fun d =>
      if d.isEmpty then file else d ++ "/" ++ file
    let found := if file.contains '/' then
        (scriptText? s.files file).toList.map fun bytes => (file, bytes)
      else inPath.filterMap fun f => ((s.files.read (pathOf f)).toOption).map (f, ·)
    match found with
    | (path, bytes) :: _ =>
      modify fun s => { s with builtin := some path, tested := false }
      runText self (ofBytes bytes)
      modify fun s' => { s' with
        builtin := s.builtin, line := s.line, tested := s.tested
        skip := if s'.skip == .function then .none else s'.skip }
    | [] =>
      if file.contains '/' then failWith s!"cannot open {file}: No such file"
      else failWith s!"{file}: not found"

/-- Run a command of the shell. -/
def builtin (x : Context) (self : Runner) (name : String) (words : List String) : Run PUnit := do
  match name with
  | ":" | "true" => setStatus 0
  | "false" => setStatus 1
  | "." => runFile self words
  | "[" =>
    if words.getLast? == some "]" then test words.dropLast else failWith "missing ]"
  | "test" => test words
  | "break" => leaveLoop false words
  | "continue" => leaveLoop true words
  | "cd" | "chdir" => changeDirectory words
  | "echo" => echoWords words
  | "eval" => runText self (spaced words)
  | "exit" => exit words
  | "export" => declare "export" (·.exported) (fun v => { v with exported := true }) words
  | "readonly" => declare "readonly" (·.fixed) (fun v => { v with fixed := true }) words
  | "getopts" => nextOption words
  | "hash" => hash x words
  | "kill" => kill self words
  | "local" => hide words
  | "printf" => printWith words
  | "pwd" =>
    write 1 ((← get).directory ++ "\n").toList
    setStatus 0
  | "read" => readLine words
  | "return" => leaveFunction words
  | "set" => setWords words
  | "shift" => shift words
  | "times" =>
    let line := "0m0.000000s 0m0.000000s\n"
    write 1 (line ++ line).toList
    setStatus 0
  | "trap" => trap words
  | "type" => describeAll x words
  | "ulimit" =>
    write 1 "unlimited\n".toList
    setStatus 0
  | "umask" => umask words
  | "unset" => unset words
  | "wait" => waitFor self words
  | "fg" | "bg" => failWith "No current job"
  | "unalias" =>
    for name in words do
      write 2 s!"unalias: {name} not found\n".toList
    setStatus (if words.isEmpty then 0 else 1)
  | _ => setStatus 0

/-- Say under its name that a command of the shell could not write. -/
def reportUnwritten (name : String) : Run PUnit := do
  let s ← get
  if s.unwritten then
    set { s with unwritten := false, builtin := some name }
    complain s!"{name}: I/O error"
    modify fun s' => { s' with builtin := s.builtin, status := s.status ||| 1 }

/-- Run a command of the shell under its name.  A complaint of a regular one
is not the end. -/
def runBuiltin (x : Context) (self : Runner) (special : Bool) (name : String)
    (words : List String) : Run PUnit := do
  let before := (← get).builtin
  modify fun s => { s with builtin := some name, unwritten := false }
  let result ← attempt (builtin x self name words)
  modify fun s => { s with builtin := before }
  match result with
  | .ok _ => reportUnwritten name
  | .error .fault => if special then throw .fault else return
  | .error e => throw e

/-! ## §4. Functions. -/

/-- Give back the values that a function has hidden. -/
def Frame.uncover (f : Frame) (hidden : List (String × Option Variable)) : Frame :=
  hidden.foldl (fun f h => f.withVariable h.1 h.2) f

/-- How deep functions may call functions. -/
def maxCalls : Nat := 1000

/-- Call a function. -/
def call (self : Runner) (body : Option Command) (words : List String) : Run PUnit := do
  let before ← get
  if maxCalls ≤ before.calls then
    failWith s!"Maximum function recursion depth ({maxCalls}) reached"
  set { before with arguments := words, calls := before.calls + 1, loops := 0, hidden := [] }
  let result ← attempt (runOptional self body)
  modify fun s =>
    let f := s.toFrame.uncover s.hidden
    { s with toFrame := { f with
        arguments := before.arguments, calls := before.calls, loops := before.loops
        hidden := before.hidden, skip := if f.skip == .function then .none else f.skip } }
  match result with
  | .ok _ => return
  | .error e => throw e

/-! ## §5. Simple commands. -/

/-- The fields of the words of a command.  After a command that takes values
for names, a word that gives a value stays one field. -/
def commandFields (self : Runner) : Bool → List Word → Run (List String)
  | _, [] => return []
  | whole, w :: more => do
    let first ← match if whole then assignment? w else none with
      | some (name, value) => do
        pure [name ++ "=" ++ (← joined self value)]
      | none => fields self w
    let takes := whole || (match first with
      | name :: _ => ["export", "readonly", "local"].contains name
      | [] => false)
    return first ++ (← commandFields self takes more)

/-- Give values to names. -/
def assignAll (self : Runner) (exported : Bool) (as : List (String × Word)) :
    Run (List String) :=
  as.mapM fun a => do
    let value ← joined self a.2
    assign a.1 value
    if exported then
      modify fun s =>
        let v := (s.held? a.1).map fun v => { v with exported := true }
        { s with toFrame := s.toFrame.withVariable a.1 v }
    return a.1 ++ "=" ++ value

/-- Show a command on the error output if that is wanted. -/
def traced (channel : Option Nat) (texts : List String) : Run PUnit := do
  let s ← get
  if s.has 'x' && !texts.isEmpty then
    if let some index := channel then
      let mark := (s.value? "PS4").getD "+ "
      modify fun s => s.writeTo index (mark ++ " ".intercalate texts ++ "\n").toList

/-- What a simple command turns out to be. -/
inductive Deed where
  | nothing
  | special (name : String) (words : List String)
  | regular (name : String) (words : List String)
  | function (body : Option Command) (words : List String)
  | replace (words : List String)
  | program (name : String) (words : List String)
  | describe (brief : Bool) (name : Option String)

/-- What fields of a command ask for.  `plain` says that functions do not
count and that no command is special. -/
def deedOf (s : State) (plain : Bool) : List String → Deed
  | [] => .nothing
  | name :: words =>
    let function := if plain then none else s.functions.find? fun f => f.1 == name
    if specialBuiltins.contains name then
      if name == "exec" then .replace words
      else if plain then .regular name words
      else .special name words
    else
      match function with
      | some f => .function f.2 words
      | none =>
        if name == "command" then
          match words with
          | "-v" :: rest => .describe true rest.head?
          | "-V" :: rest => .describe false rest.head?
          | "-p" :: rest | "--" :: rest => deedOf s true rest
          | w :: rest =>
            if w.startsWith "-" && 1 < w.length then .regular name words
            else deedOf s true (w :: rest)
          | [] => .nothing
        else if regularBuiltins.contains name then .regular name words
        else .program name words

/-- Run something with values that names have only for that time. -/
def withValues (self : Runner) (as : List (String × Word)) (body : List String → Run PUnit) :
    Run PUnit := do
  let before ← get
  let hidden := as.map fun a => (a.1, before.held? a.1)
  let texts ← assignAll self true as
  let result ← attempt (body texts)
  modify fun s => { s with toFrame := s.toFrame.uncover hidden }
  match result with
  | .ok _ => return
  | .error e => throw e

/-- Do what a simple command asks for. -/
def perform (x : Context) (self : Runner) (channel : Option Nat) (as : List (String × Word))
    (names : List String) (deed : Deed) : Run PUnit := do
  match deed with
  | .nothing =>
    traced channel ((← assignAll self false as) ++ names)
    modify fun s => { s with status := s.taken }
  | .special name words =>
    traced channel ((← assignAll self false as) ++ names)
    runBuiltin x self true name words
  | .replace words =>
    traced channel ((← assignAll self (!words.isEmpty) as) ++ names)
    match words with
    | [] => setStatus 0
    | name :: words =>
      modify fun s => { s with builtin := some "exec" }
      start x true name words
  | .regular name words =>
    withValues self as fun texts => do
      traced channel (texts ++ names)
      if name == "command" then
        let letter := String.ofList ((words.headD "").toList.drop 1 |>.take 1)
        modify fun s => { s with builtin := some name }
        complain s!"Illegal option -{letter}"
        modify fun s => { s with builtin := none, status := 2 }
      else runBuiltin x self false name words
  | .function body words =>
    withValues self as fun texts => do
      traced channel (texts ++ names)
      call self body words
  | .program name words =>
    withValues self as fun texts => do
      traced channel (texts ++ names)
      start x false name words
  | .describe brief name =>
    withValues self as fun texts => do
      traced channel (texts ++ names)
      modify fun s => { s with unwritten := false }
      match name with
      | none => setStatus 0
      | some name =>
        match describe x (← get) brief name with
        | some text =>
          rememberProgram name
          write 1 (text ++ "\n").toList
          setStatus 0
        | none =>
          if !brief then write 1 s!"{name}: not found\n".toList
          setStatus 127
      reportUnwritten "command"

/-- Run a simple command. -/
def runSimple (x : Context) (self : Runner) (line : Nat) (as : List (String × Word))
    (words : List Word) (rs : List Redirection) : Run PUnit := do
  modify fun s => { s with line, taken := 0 }
  let names ← commandFields self false words
  let s ← get
  let deed := deedOf s false names
  let channel := s.channel? 2
  let kept := match deed with | .replace _ => true | _ => false
  let done ← under self rs kept (perform x self channel as names deed)
  if !done then
    match deed with
    | .special .. | .replace _ => throw .fault
    | _ => return

/-! ## §6. Compound commands. -/

/-- Run something whose exit code somebody looks at. -/
def asTest (body : Run PUnit) : Run PUnit := do
  let before := (← get).tested
  modify fun s => { s with tested := true }
  body
  modify fun s => { s with tested := before }

/-- End the script after a failure that nobody looks at, if that is
wanted. -/
def checkStatus : Run PUnit := do
  let s ← get
  if s.has 'e' && s.status != 0 && !s.tested && s.skip == .none then throw .exit

/-- Whether a loop goes on after a round. -/
def afterRound : Run Bool := do
  match (← get).skip with
  | .none => return true
  | .next n =>
    modify fun s => { s with skip := if n ≤ 1 then .none else .next (n - 1) }
    return n ≤ 1
  | .leave n =>
    modify fun s => { s with skip := if n ≤ 1 then .none else .leave (n - 1) }
    return false
  | .function => return false

/-- Go round after round for as long as a round says so. -/
def rounds (round : Run Bool) : Nat → Run PUnit
  | 0 => throw .endless
  | n + 1 => do
    if ← round then rounds round n else return

/-- Run something as a loop. -/
def inLoop (body : Run PUnit) : Run PUnit := do
  modify fun s => { s with loops := s.loops + 1 }
  body
  modify fun s => { s with loops := s.loops - 1 }

/-- One round of a loop with a test. -/
def testedRound (self : Runner) (wanted : Wanted) (test body : Option Command) (status : Nat) :
    Run (Option Nat) := do
  asTest (runOptional self test)
  if (← get).skip != .none then
    if ← afterRound then return some status else return none
  let passed := ((← get).status == 0) == (wanted == .success)
  if !passed then
    setStatus status
    return none
  runOptional self body
  let status := (← get).status
  if ← afterRound then return some status else return none

/-- Rounds of a loop with a test; `status` is the exit code of the round
before. -/
def testedLoop (self : Runner) (wanted : Wanted) (test body : Option Command) :
    Nat → Nat → Run PUnit
  | 0, _ => throw .endless
  | n + 1, status => do
    match ← testedRound self wanted test body status with
    | some status => testedLoop self wanted test body n status
    | none => return

/-- One round for each value. -/
def eachRound (self : Runner) (name : String) (body : Option Command) : List String → Run PUnit
  | [] => return
  | v :: more => do
    assign name v
    runOptional self body
    if ← afterRound then eachRound self name body more else return

/-- The first case that fits a text. -/
def chosen (self : Runner) (text : Octets) :
    List (List Word × Option Command) → Run (Option (Option Command))
  | [] => return none
  | (patterns, body) :: more => do
    for w in patterns do
      if fits (← wordPattern self w) text then return some body
    chosen self text more

/-- The bytes of a channel. -/
def contentOf (index : Nat) : Run Octets := do
  return match (← get).channels[index]? with
    | some (.sink bytes) => ofBytes bytes
    | some (.source rest _) => rest
    | _ => []

/-- Run the members of a pipeline, all from the same moment on.  `source` is
the channel that the next one reads, and `open` whether what writes to it
does not end.  Such a member ends once nobody reads what it writes. -/
def pipe (self : Runner) (status : Nat) (moment : Rat) (source : Option Nat) (unending : Bool)
    (latest : Rat) : List Command → Run PUnit
  | [] => return
  | c :: more => do
    let target ← if more.isEmpty then pure none else some <$> openChannel (.sink .empty)
    let prepare (s : State) : State :=
      let s := match source with
        | some index => s.connect 0 (some index)
        | none => s
      let s := match target with
        | some index => s.connect 1 (some index)
        | none => s
      { s with clock := moment, status }
    let budget := (← get).budget
    let result ← attempt (apart prepare (withEnd self (self c)))
    match result with
    | .error (.signal n) => throw (.signal n)
    | .error .endless => modify fun s => { s with budget := budget / 2 }
    | _ => pure ()
    let read ← match source with
      | some index => contentOf index
      | none => pure []
    let ended := match result with
      | .error .endless => false
      | _ => !(unending && read.isEmpty)
    let now := (← get).clock
    let latest := if ended then later latest now else latest
    match target with
    | none =>
      modify fun s => { s with clock := latest }
      if !ended then throw .endless
    | some index =>
      let written ← contentOf index
      let next ← openChannel (.source written false)
      modify fun s => { s with channels := s.channels.setIfInBounds index .nothing }
      pipe self status moment (some next) (!ended) latest more

/-! ## §7. Steps. -/

/-- One command less may be run. -/
def spend : Run PUnit := do
  let s ← get
  if s.budget == 0 then throw .endless
  set { s with budget := s.budget - 1 }

/-- **Run one command**, and leave those inside it to a runner. -/
def step (x : Context) (self : Runner) (c : Command) : Run PUnit := do
  if (← get).has 'n' then return
  spend
  match c with
  | .simple line as words rs =>
    runSimple x self line as words rs
    receivePending self
    checkStatus
  | .pipeline members =>
    let s ← get
    pipe self s.status s.clock none false s.clock members
    receivePending self
    checkStatus
  | .negated body =>
    asTest (self body)
    if (← get).skip == .none then
      modify fun s => { s with status := if s.status == 0 then 1 else 0 }
  | .both first second =>
    asTest (self first)
    let s ← get
    if s.status == 0 && s.skip == .none then self second
  | .either first second =>
    asTest (self first)
    let s ← get
    if s.status != 0 && s.skip == .none then self second
  | .sequence first second =>
    self first
    if (← get).skip == .none then self second
  | .background body =>
    let s ← get
    let job : Job :=
      { number := s.nextJob, place := freePlace (s.jobs.filter fun j => !j.orphan)
        body := some (body, s.toFrame), start := s.clock }
    set { s with
      jobs := s.jobs ++ [job], nextJob := s.nextJob + 1, lastJob := some s.nextJob, status := 0 }
  | .redirected line body rs =>
    if rs.isEmpty then runOptional self body
    else
      modify fun s => { s with line }
      let done ← under self rs false (runOptional self body)
      if !done then checkStatus
  | .apart line body rs =>
    modify fun s => { s with line }
    apart id do
      let done ← under self rs false (withEnd self (runOptional self body))
      if !done then throw .fault
    receivePending self
    checkStatus
  | .branch test yes no =>
    asTest (runOptional self test)
    let s ← get
    if s.skip == .none then
      if s.status == 0 then runOptional self yes
      else
        match no with
        | some no => self no
        | none => setStatus 0
  | .loop wanted test body =>
    let room := (← get).budget + 1
    inLoop (testedLoop self wanted test body room 0)
  | .each line name words body =>
    modify fun s => { s with line }
    let arguments := (← get).arguments
    let values ← match words with
      | some words => List.flatten <$> words.mapM (fields self)
      | none => pure arguments
    if values.isEmpty then setStatus 0
    inLoop (eachRound self name body values)
  | .choice line word cases =>
    modify fun s => { s with line }
    let text ← joined self word
    match ← chosen self text.toList cases with
    | some (some body) => self body
    | _ => setStatus 0
  | .define name body =>
    modify fun s => { s with
      functions := (name, body) :: (s.functions.filter fun f => f.1 != name), status := 0 }

/-- **Run a command** whose levels are bounded. -/
def eval (x : Context) : Nat → Runner
  | 0, _ => throw .endless
  | depth + 1, c => step x (eval x depth) c

/-! ## §8. The program. -/

/-- How deep the commands of a script may go. -/
def maxLevels : Nat := 12000

/-- How many commands a script may run. -/
def maxCommands : Nat := 400000

/-- Where programs are looked for if nothing is said about it. -/
def defaultPath : String := "/usr/local/sbin:/usr/local/bin:/usr/sbin:/usr/bin:/sbin:/bin"

/-- The values with which a script starts. -/
def firstValues (c : Call) : List (String × Variable) :=
  let given := c.environment.filter fun v => isName v.1
  let exported (v : String × String) : String × Variable := (v.1, ⟨some v.2, true, false⟩)
  let own := [("IFS", " \t\n"), ("OPTIND", "1"), ("PS1", "# "), ("PS2", "> "), ("PS4", "+ ")]
  let home := octetString (Path.toString ⟨.root, c.files.home⟩)
  let others := given.filter fun v => v.1 != "PWD" && !own.any fun o => o.1 == v.1
  let path := if given.any fun v => v.1 == "PATH" then [] else [("PATH", defaultPath)]
  ("PWD", ⟨some home, true, false⟩) :: others.map exported
    ++ (own ++ path).map fun v => (v.1, ⟨some v.2, false, false⟩)

/-- What a script that has ended leaves behind. -/
def finishOf (c : Call) (result jobs : Except Stop Unit) (s : State) :
    Finish :=
  { code := match result with
      | .error (.signal n) => -(n : Int)
      | _ => (s.status % 256 : Nat)
    writes := s.log.reverse
    left := match (s.channels[0]? : Option Channel) with
      | some (.source rest _) => some rest
      | _ => none
    seconds := match result, jobs with
      | .error .endless, _ | _, .error .endless => none
      | _, _ => some s.clock
    files := some { s.files with home := c.files.home } }

/-- Run something as a shell of its own. -/
def runShell (x : Context) (c : Call) (body : Runner → Run PUnit) : Finish :=
  let self := eval x maxLevels
  let s : State :=
    { name := c.name, values := firstValues c, files := c.files, budget := maxCommands
      descriptors := [(0, 0), (1, 1), (2, 2)].filter fun d => !c.closed.contains d.1
      channels := #[.source c.input c.seekable, .outlet false, .outlet true] }
  let whole : Run (Except Stop PUnit × Except Stop PUnit) := do
    let result ← attempt (withEnd self (body self))
    return (result, ← attempt (settleJobs self true))
  match whole.run s with
  | (.ok (result, jobs), s) => finishOf c result jobs s
  | (.error e, s) => finishOf c (.error e) (.ok ()) s

/-- The options of a shell, what follows them, and whether a script comes
first among it. -/
def shellWords : Nat → List String → Bool → Run (Bool × List String)
  | 0, words, script => return (script, words)
  | _, [], script => return (script, [])
  | fuel + 1, w :: rest, script =>
    match w.toList with
    | ['-'] | ['-', '-'] => return (script, rest)
    | sign :: cs =>
      if sign == '-' || sign == '+' then do
        let rest ← setLetters (sign == '-') (cs.filter (· != 'c')) rest
        shellWords fuel rest (script || cs.contains 'c')
      else return (script, w :: rest)
    | [] => return (script, w :: rest)

/-- **Run the script that the words name**: the one after `-c`, the one in a
file, or else the one on the input. -/
def shell (x : Context) (c : Call) : Finish :=
  runShell x c fun self => do
    let (script, words) ← shellWords (c.words.length + 1) c.words false
    let s ← get
    if script then
      match words with
      | [] => failWith "-c requires an argument"
      | text :: more =>
        modify fun s => { s with name := more.headD s.name, arguments := more.drop 1 }
        runText self text.toList
    else
      match words, s.has 's' with
      | file :: more, false =>
        match scriptText? s.files file with
        | some bytes =>
          modify fun s => { s with name := file, arguments := more }
          runText self (ofBytes bytes)
        | none => failWith s!"cannot open {file}: No such file"
      | arguments, _ =>
        modify fun s => { s.withInput [] with
          arguments, options := if s.has 's' then s.options else 's' :: s.options }
        runText self c.input

end Offside.Tool.Script
