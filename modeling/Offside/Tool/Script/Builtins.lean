/-
  Offside.Tool.Script.Builtins
  ────────────────────────────
  The commands of the shell itself.

  They change the state of the script and set its exit code.  A complaint of
  a special one ends the script; after a complaint of any other one the
  script goes on.
-/
import Offside.Tool.Print
import Offside.Tool.Script.Condition
import Offside.Tool.Script.Expand

namespace Offside.Tool.Script

/-! ## §1. Numbers and options. -/

/-- The number that digits write. -/
def number? (word : String) : Option Nat :=
  let cs := word.toList
  if !cs.isEmpty && cs.all Char.isDigit then
    let n := digitsValue 10 (cs.filterMap digit?)
    if n < Nat.pow 2 31 then some n else none
  else none

/-- The number that a word writes, or a complaint. -/
def number (word : String) : Run Nat :=
  match number? word with
  | some n => return n
  | none => failWith s!"Illegal number: {word}"

/-- The option letters in front of other words.  A letter in `valued` takes
the rest of its word, or the next word. -/
def letters (known valued : List Char) :
    Nat → List String → Run (List (Char × String) × List String)
  | 0, words => return ([], words)
  | fuel + 1, words => do
    match words with
    | "--" :: rest => return ([], rest)
    | w :: rest =>
      match w.toList with
      | '-' :: c :: more =>
        if valued.contains c then
          match more, rest with
          | [], v :: rest =>
            let (found, rest) ← letters known valued fuel rest
            return ((c, v) :: found, rest)
          | [], [] => failWith s!"No arg for -{c} option"
          | v, rest =>
            let (found, rest) ← letters known valued fuel rest
            return ((c, String.ofList v) :: found, rest)
        else if known.contains c then
          let words := if more.isEmpty then rest else String.ofList ('-' :: more) :: rest
          let (found, rest) ← letters known valued fuel words
          return ((c, "") :: found, rest)
        else failWith s!"Illegal option -{c}"
      | _ => return ([], words)
    | [] => return ([], [])

/-- The option letters in front of words, with room for all of them. -/
def lettersOf (known valued : List Char) (words : List String) :
    Run (List (Char × String) × List String) :=
  let room := (words.map fun w => w.length + 1).foldl (· + ·) 1
  letters known valued room words

/-- A text in quotes: all that is no quote between single ones, and quotes
between double ones. -/
def singleQuoted (s : String) : String := String.ofList (go (s.length + 1) s.toList)
where
  /-- Go on with the next run, of which there is always one. -/
  go : Nat → Octets → Octets
    | 0, _ => []
    | fuel + 1, cs =>
      let run := cs.takeWhile (· != '\'')
      let rest := cs.drop run.length
      let quotes := rest.takeWhile (· == '\'')
      let after := rest.drop quotes.length
      ['\''] ++ run ++ ['\''] ++ (if quotes.isEmpty then [] else ['"'] ++ quotes ++ ['"'])
        ++ (if after.isEmpty then [] else go fuel after)

/-! ## §2. Signals. -/

/-- The names of the signals, by their numbers. -/
def signalNames : List String :=
  ["EXIT", "HUP", "INT", "QUIT", "ILL", "TRAP", "ABRT", "BUS", "FPE", "KILL", "USR1", "SEGV",
   "USR2", "PIPE", "ALRM", "TERM", "16", "CHLD", "CONT", "STOP", "TSTP", "TTIN", "TTOU",
   "URG", "XCPU", "XFSZ", "VTALRM", "PROF", "WINCH", "IO", "PWR", "SYS", "32", "33", "RTMIN"]
  ++ (List.range 15).map (fun n => s!"RTMIN+{n + 1}")
  ++ (List.range 14).map (fun n => s!"RTMAX-{14 - n}") ++ ["RTMAX"]

/-- The number of a signal by its name or number. -/
def signal? (word : String) : Option Nat :=
  match number? word with
  | some n => if n ≤ 64 then some n else none
  | none =>
    let upper := String.ofList (word.toList.map Char.toUpper)
    (signalNames.zipIdx.find? fun p => p.1 == upper).map (·.2)

/-- What is said of a program that was ended by a signal. -/
def signalText (number : Nat) : String :=
  match number with
  | 1 => "Hangup\n"
  | 3 => "Quit\n"
  | 4 => "Illegal instruction\n"
  | 5 => "Trace/breakpoint trap\n"
  | 6 => "Aborted\n"
  | 7 => "Bus error\n"
  | 8 => "Floating point exception\n"
  | 9 => "Killed\n"
  | 10 => "User defined signal 1\n"
  | 11 => "Segmentation fault\n"
  | 12 => "User defined signal 2\n"
  | 14 => "Alarm clock\n"
  | 15 => "Terminated\n"
  | 16 => "Stack fault\n"
  | 24 => "CPU time limit exceeded\n"
  | 25 => "File size limit exceeded\n"
  | 26 => "Virtual timer expired\n"
  | 27 => "Profiling timer expired\n"
  | 29 => "I/O possible\n"
  | 30 => "Power failure\n"
  | 31 => "Bad system call\n"
  | 32 | 33 => s!"Unknown signal {number}\n"
  | _ => if 34 ≤ number && number ≤ 64 then s!"Real-time signal {number - 34}\n" else ""

/-- Whether a signal that nobody expects does no harm. -/
def isHarmless (number : Nat) : Bool := [0, 17, 18, 23, 28].contains number

/-- Whether a signal halts its receiver, which then never ends. -/
def isHalting (number : Nat) : Bool := [19, 20, 21, 22].contains number

/-- A signal reaches the script itself. -/
def receive (self : Runner) (number : Nat) : Run PUnit := do
  let s ← get
  let trap := if [0, 9, 19].contains number then none else s.traps.find? fun t => t.1 == number
  match trap with
  | some (_, text) =>
    set { s with builtin := none }
    runText self text.toList
    modify fun s' => { s' with
      builtin := s.builtin, status := if s'.skip == .function then s'.status else s.status }
  | none =>
    if isHarmless number then return
    else if isHalting number then throw .endless
    else throw (.signal number)

/-- The signals that the script has sent to itself arrive. -/
def receivePending (self : Runner) : Run PUnit := do
  let s ← get
  if s.nested == 0 then
    set { s with pending := [] }
    for n in s.pending do
      receive self n

/-- What is said of a word for a job that is not there. -/
def noJob (word : String) : String :=
  match word.toList with
  | ['%'] | ['%', '%'] | ['%', '+'] => "No current job"
  | ['%', '-'] => "No previous job"
  | _ => s!"No such job: {word}"

/-- A signal is sent to a receiver.  A part of the script that runs apart
goes on until its end, even if the script does not. -/
def sendSignal (self : Runner) (signal : Nat) (receiver : String) : Run PUnit := do
  let s ← get
  if receiver.startsWith "%" then
    if (s.jobOf? receiver).isNone then failWith (noJob receiver)
    complain "No such process\n"
    setStatus 1
    return
  let own := match receiver.toList with
    | '-' :: rest => rest
    | cs => cs
  match number? (String.ofList own) with
  | none => failWith s!"Illegal number: {String.ofList own}"
  | some n =>
    if toString n == ownNumber then
      let expected := 0 < s.nested || s.traps.any fun t => t.1 == signal
      if expected && !([9, 19].contains signal) || 0 < s.nested then
        if signal != 0 && !s.pending.contains signal then
          set { s with pending := s.pending ++ [signal] }
      else receive self signal
    else
      match s.jobs.find? fun j => j.number == n with
      | some _ =>
        let harmless := isHarmless signal
        modify fun s => { s with jobs := s.jobs.map fun j =>
          if j.number == n && j.body.isSome && !harmless then
            { j with body := none, finish := some s.clock, status := 128 + signal }
          else j }
      | none =>
        complain "No such process\n"
        setStatus 1

/-- What `kill` is used like. -/
def killUsage : String :=
  "Usage: kill [-s sigspec | -signum | -sigspec] [pid | job]... or\nkill -l [exitstatus]"

/-- Send a signal, or list the signals. -/
def kill (self : Runner) (words : List String) : Run PUnit := do
  let (signal, listing, receivers) ← match words with
    | [] => failWith killUsage
    | "-s" :: rest =>
      match rest with
      | [] => failWith "No arg for -s option"
      | name :: rest =>
        match signal? name with
        | some n => pure (n, false, rest)
        | none => failWith s!"invalid signal number or name: {name}"
    | "-l" :: rest => pure (15, true, rest)
    | "--" :: rest => pure (15, false, rest)
    | w :: rest =>
      match w.toList with
      | '-' :: c :: name =>
        let name := c :: name
        match signal? (String.ofList name) with
        | some n => pure (n, false, rest)
        | none => failWith s!"Illegal option -{String.ofList (name.take 1)}"
      | _ => pure (15, false, w :: rest)
  if listing then
    match receivers with
    | [] =>
      let names := "0" :: signalNames.drop 1
      write 1 (String.join (names.map (· ++ "\n"))).toList
    | w :: _ =>
      let n ← number w
      let n := if 128 < n then n - 128 else n
      match (signalNames.drop n).head? with
      | some name =>
        if n == 0 then failWith s!"invalid signal number or exit status: {w}"
        write 1 (name ++ "\n").toList
      | none => failWith s!"invalid signal number or exit status: {w}"
    setStatus 0
  else
    let receivers := match receivers with | "--" :: rest => rest | rest => rest
    if receivers.isEmpty then failWith killUsage
    setStatus 0
    for r in receivers do
      sendSignal self signal r

/-- Say what is to be run when signals arrive. -/
def trap (words : List String) : Run PUnit := do
  let (_, words) ← lettersOf [] [] words
  match words with
  | [] =>
    let s ← get
    let shown := s.traps.mergeSort fun a b => decide (a.1 ≤ b.1)
    for t in shown do
      let name := (signalNames.drop t.1).headD (toString t.1)
      write 1 s!"trap -- {singleQuoted t.2} {name}\n".toList
    setStatus 0
  | [name] => change none [name]
  | action :: names =>
    if (number? action).isSome then change none words
    else change (if action == "-" then none else some action) names
where
  /-- Set or drop what is run for some signals. -/
  change (action : Option String) (names : List String) : Run PUnit := do
    setStatus 0
    for name in names do
      match signal? name with
      | none =>
        write 2 s!"trap: {name}: bad trap\n".toList
        setStatus 1
        return
      | some n =>
        modify fun s =>
          let others := s.traps.filter fun t => t.1 != n
          { s with traps := match action with
              | some text => (n, text) :: others
              | none => others }

/-! ## §3. Words. -/

/-- Write words. -/
def echoWords (words : List String) : Run PUnit := do
  write 1 (echoResolved words)
  setStatus 0

/-- Write words by a format. -/
def printWith (words : List String) : Run PUnit := do
  let (_, words) ← lettersOf [] [] words
  match words with
  | [] => failWith "usage: printf format [arg ...]"
  | format :: words =>
    let (code, cs, complaints) := printWords .builtin format words
    for message in complaints do
      complain message
    write 1 cs
    setStatus code.toNat

/-- What the files look like to a condition. -/
def State.sights (s : State) : Sights where
  look w :=
    if w.isEmpty then none else (s.files.stat (pathOf w)).toOption
  isDevice w := ["/dev/full", "/dev/null", "/dev/random", "/dev/tty", "/dev/urandom",
    "/dev/zero"].contains w

/-- See whether a condition holds. -/
def test (words : List String) : Run PUnit := do
  match holds (← get).sights (words.length + 1) words with
  | .ok answer => setStatus (if answer then 0 else 1)
  | .error message => failWith message

/-! ## §4. Values. -/

/-- The variables, sorted by their names. -/
def Frame.sorted (f : Frame) : List (String × Variable) :=
  f.values.mergeSort fun a b => decide (a.1 ≤ b.1)

/-- Mark values: `mark` is what becomes of a variable. -/
def declare (title : String) (shown : Variable → Bool) (mark : Variable → Variable)
    (words : List String) : Run PUnit := do
  let (options, words) ← lettersOf ['p'] [] words
  if !options.isEmpty || words.isEmpty then
    for v in (← get).sorted do
      if shown v.2 then
        let value := match v.2.value with
          | some s => "=" ++ singleQuoted s
          | none => ""
        write 1 s!"{title} {v.1}{value}\n".toList
  else
    for w in words do
      let (name, value) := match nameAndValue? w.toList with
        | some (name, value) => (name, some (String.ofList value))
        | none => (String.ofList (w.toList.takeWhile (· != '=')), none)
      if !isName name then failWith s!"{name}: bad variable name"
      if let some value := value then assign name value
      let v := ((← get).held? name).getD ⟨none, false, false⟩
      modify fun s => { s with toFrame := s.toFrame.withVariable name (some (mark v)) }
  setStatus 0

/-- Drop values or functions. -/
def unset (words : List String) : Run PUnit := do
  let (options, words) ← lettersOf ['v', 'f'] [] words
  for name in words do
    if options.any fun o => o.1 == 'f' then
      modify fun s => { s with functions := s.functions.filter fun f => f.1 != name }
    else
      if !isName name then failWith s!"{name}: bad variable name"
      if ((← get).held? name).any (·.fixed) then failWith s!"{name}: is read only"
      modify fun s => { s with toFrame := s.toFrame.withVariable name none }
  setStatus 0

/-- Hide values until the end of a function. -/
def hide (words : List String) : Run PUnit := do
  if (← get).calls == 0 then failWith "not in a function"
  for w in words do
    let (name, value) := match nameAndValue? w.toList with
      | some (name, value) => (name, some (String.ofList value))
      | none => (w, none)
    if !isName name then failWith s!"{name}: bad variable name"
    modify fun s => { s with hidden := (name, s.held? name) :: s.hidden }
    if let some value := value then assign name value
  setStatus 0

/-- The names of the options, with their letters. -/
def optionNames : List (String × Option Char) :=
  [("errexit", 'e'), ("noglob", 'f'), ("ignoreeof", 'I'), ("interactive", 'i'),
   ("monitor", 'm'), ("noexec", 'n'), ("stdin", 's'), ("xtrace", 'x'), ("verbose", 'v'),
   ("vi", 'V'), ("emacs", 'E'), ("noclobber", 'C'), ("allexport", 'a'), ("notify", 'b'),
   ("nounset", 'u'), ("privileged", 'p'), ("nolog", none), ("debug", none)]

/-- Set or drop an option. -/
def Frame.setOption (f : Frame) (c : Char) (on : Bool) : Frame :=
  let others := f.options.filter (· != c)
  { f with options := if on then c :: others else others }

/-- List the options. -/
def listOptions : Run PUnit := do
  let s ← get
  write 1 "Current option settings\n".toList
  for o in optionNames do
    let on := o.2.any s.has
    let gap := String.ofList (List.replicate (16 - o.1.length) ' ')
    let state := if on then "on" else "off"
    write 1 s!"{o.1}{gap}{state}\n".toList

/-- Set or drop the options of some letters; one letter takes the next word.
The answer is what is left of the words. -/
def setLetters (on : Bool) : Octets → List String → Run (List String)
  | [], rest => return rest
  | 'o' :: cs, [] => do
    listOptions
    setLetters on cs []
  | 'o' :: cs, name :: rest => do
    match optionNames.find? fun o => o.1 == name with
    | some (_, some c) => modify fun s => { s with toFrame := s.toFrame.setOption c on }
    | some (_, none) => pure ()
    | none => failWith s!"Illegal option -o {name}"
    setLetters on cs rest
  | c :: cs, rest => do
    if (optionNames.filterMap (·.2)).contains c then
      modify fun s => { s with toFrame := s.toFrame.setOption c on }
    else failWith s!"Illegal option -{c}"
    setLetters on cs rest

/-- Set options from words, and answer with the words after them; nothing if
there are none. -/
def setOptions : Nat → List String → Run (Option (List String))
  | 0, _ | _, [] => return none
  | fuel + 1, w :: rest =>
    match w.toList with
    | ['-'] => do
      modify fun s => { s with toFrame := (s.toFrame.setOption 'x' false).setOption 'v' false }
      return if rest.isEmpty then none else some rest
    | ['-', '-'] => return some rest
    | sign :: cs =>
      if sign == '-' || sign == '+' then do
        setOptions fuel (← setLetters (sign == '-') cs rest)
      else return some (w :: rest)
    | [] => return some (w :: rest)

/-- Set options and arguments, or list the values. -/
def setWords (words : List String) : Run PUnit := do
  if words.isEmpty then
    for v in (← get).sorted do
      if let some value := v.2.value then
        write 1 s!"{v.1}={singleQuoted value}\n".toList
  else
    if let some arguments ← setOptions (words.length + 1) words then
      modify fun s => { s with arguments }
  setStatus 0

/-- Drop the first arguments of the script. -/
def shift (words : List String) : Run PUnit := do
  let n ← match words with
    | [] => pure 1
    | w :: _ => number w
  if (← get).arguments.length < n then failWith "can't shift that many"
  modify fun s => { s with arguments := s.arguments.drop n }
  setStatus 0

/-! ## §5. Reading lines. -/

/-- A line of the input, with what follows it, and whether it was ended.
Unless `raw`, a backslash hides the meaning of the next byte. -/
def lineOf (raw : Bool) : Octets → List Mark × Octets × Bool
  | [] => ([], [], false)
  | '\n' :: rest => ([], rest, true)
  | '\\' :: rest =>
    if raw then push ⟨'\\', false, true⟩ (lineOf raw rest)
    else
      match rest with
      | '\n' :: rest => lineOf raw rest
      | c :: rest => push ⟨c, true, false⟩ (lineOf raw rest)
      | [] => ([], [], false)
  | c :: rest => if c == '\x00' then lineOf raw rest else push ⟨c, false, true⟩ (lineOf raw rest)
where
  /-- Put a cell in front. -/
  push (c : Cell) (p : List Mark × Octets × Bool) : List Mark × Octets × Bool :=
    (.cell c :: p.1, p.2)

/-- Whether a cell is a separator, and whether it is a blank one. -/
def Cell.separates (separators : Octets) (c : Cell) : Bool :=
  c.splits && separators.contains c.char

/-- Whether a cell is a separator that is a blank. -/
def Cell.isGap (separators : Octets) (c : Cell) : Bool :=
  c.separates separators && (c.char == ' ' || c.char == '\t' || c.char == '\n')

/-- The first field of cells, and what follows it and its separator. -/
def firstField (separators : Octets) (cells : List Cell) : List Cell × List Cell :=
  let field := cells.takeWhile fun c => !c.separates separators
  let rest := cells.drop field.length
  let rest := rest.dropWhile (·.isGap separators)
  match rest with
  | c :: more =>
    let gap := (cells.drop field.length).head?.any (·.isGap separators)
    if c.separates separators && (gap || field.length < cells.length) then
      (field, more.dropWhile (·.isGap separators))
    else (field, rest)
  | [] => (field, [])

/-- The rest of a line for the last name: blanks at its end are dropped, and
so is the separator of a field that is the last one. -/
def lastField (separators : Octets) (cells : List Cell) : List Cell :=
  let trimmed := (cells.reverse.dropWhile (·.isGap separators)).reverse
  match firstField separators trimmed with
  | (field, []) => field
  | _ => trimmed

/-- The values of names from a line. -/
def lineFields (separators : Octets) : List String → List Cell → List (String × String)
  | [], _ => []
  | [name], cells => [(name, String.ofList (plain (lastField separators cells)))]
  | name :: more, cells =>
    let (field, rest) := firstField separators cells
    (name, String.ofList (plain field)) :: lineFields separators more rest

/-- Read a line into values. -/
def readLine (words : List String) : Run PUnit := do
  let (options, names) ← lettersOf ['r'] ['p'] words
  if names.isEmpty then failWith "arg count"
  let raw := options.any fun o => o.1 == 'r'
  let s ← get
  let (ms, rest, ended) := lineOf raw s.input
  set (s.withInput rest)
  let separators := s.separators
  let cells := (cellsOf ms).dropWhile (·.isGap separators)
  for v in lineFields separators names cells do
    if !isName v.1 then failWith s!"{v.1}: bad variable name"
    assign v.1 v.2
  setStatus (if ended then 0 else 1)

/-! ## §6. Directories. -/

/-- The working directory as a text. -/
def State.directory (s : State) : String :=
  octetString (Path.toString ⟨.root, s.files.home⟩)

/-- Go to another directory. -/
def changeDirectory (words : List String) : Run PUnit := do
  let (_, words) ← lettersOf ['P', 'L'] [] words
  let s ← get
  let target := match words.head? with
    | some "-" => (s.value? "OLDPWD").getD s.directory
    | some w => w
    | none => (s.value? "HOME").getD ""
  let path := if target.isEmpty then Path.here else pathOf target
  match s.files.isDirectory path, s.files.locate path with
  | true, .ok home =>
    let before := s.directory
    modify fun s => { s with files := { s.files with home } }
    assign "OLDPWD" before
    assign "PWD" (← get).directory
    if words.head? == some "-" then write 1 ((← get).directory ++ "\n").toList
    setStatus 0
  | _, _ => failWith s!"can't cd to {target}"

/-- A mask in octal digits. -/
def maskText (n : Nat) : String :=
  let digits := Nat.toDigits 8 n
  String.ofList (List.replicate (4 - digits.length) '0' ++ digits)

/-- The rights that a mask leaves, in letters. -/
def maskLetters (n : Nat) : String :=
  let part (title : String) (bits : Nat) : String :=
    let letters := [(4, 'r'), (2, 'w'), (1, 'x')].filterMap fun p =>
      if bits / p.1 % 2 == 0 then some p.2 else none
    title ++ "=" ++ String.ofList letters
  ",".intercalate [part "u" (n / 64 % 8), part "g" (n / 8 % 8), part "o" (n % 8)]

/-- Show or set the mask of new files. -/
def umask (words : List String) : Run PUnit := do
  let (options, words) ← lettersOf ['S'] [] words
  match words with
  | [] =>
    let n := (← get).mask
    write 1 ((if options.isEmpty then maskText n else maskLetters n) ++ "\n").toList
  | w :: _ =>
    if w.toList.all fun c => c.isDigit then
      match naturalAt? 8 octalDigit? w.toList with
      | some (n, []) => modify fun s => { s with mask := n % 512 }
      | _ => failWith s!"Illegal number: {w}"
  setStatus 0

/-! ## §7. Options of scripts. -/

/-- Read the next option of the arguments into a value. -/
def nextOption (words : List String) : Run PUnit := do
  match words with
  | known :: name :: given =>
    let s ← get
    let arguments := if given.isEmpty then s.arguments else given
    let place := (((s.value? "OPTIND").bind number?).getD 1) - 1
    let quiet := known.startsWith ":"
    let specs := (if quiet then known.toList.drop 1 else known.toList)
    let finish (place letters : Nat) (value : String) (argument : Option String)
        (status : Nat) : Run PUnit := do
      assign "OPTIND" (toString (place + 1))
      match argument with
      | some v => assign "OPTARG" v
      | none => modify fun s => { s with toFrame := s.toFrame.withVariable "OPTARG" none }
      assign name value
      modify fun s => { s with letters }
      setStatus status
    let place := if 0 < s.letters then place - 1 else place
    let word := (arguments.drop place).headD ""
    let letters := word.toList.drop (1 + s.letters)
    match word.toList, letters with
    | '-' :: _ :: _, c :: more =>
      if word == "--" then finish (place + 1) 0 "?" none 1
      else
        let after := place + 1
        let taken := if more.isEmpty then 0 else s.letters + 1
        let isKnown := c != ':' && specs.contains c
        let valued := ((specs.dropWhile (· != c)).drop 1).head? == some ':'
        if !isKnown then
          if quiet then finish after taken "?" (some (String.singleton c)) 0
          else
            write 2 s!"Illegal option -{c}\n".toList
            finish after taken "?" none 0
        else if !valued then finish after taken (String.singleton c) none 0
        else if !more.isEmpty then
          finish (place + 1) 0 (String.singleton c) (some (String.ofList more)) 0
        else
          match (arguments.drop (place + 1)).head? with
          | some v => finish (place + 2) 0 (String.singleton c) (some v) 0
          | none =>
            if quiet then finish (place + 1) 0 ":" (some (String.singleton c)) 0
            else
              write 2 s!"No arg for -{c} option\n".toList
              finish (place + 1) 0 "?" none 0
    | _, _ => finish place 0 "?" none 1
  | _ => failWith "Usage: getopts optstring var [arg...]"

/-! ## §8. Jobs. -/

/-- Wait for jobs. -/
def waitFor (self : Runner) (words : List String) : Run PUnit := do
  match words with
  | [] =>
    settleJobs self false
    modify fun s => { s with jobs := s.jobs.filter (·.orphan), status := 0 }
  | words =>
    for w in words do
      let s ← get
      let n ← match s.jobOf? w with
        | some j => pure j.number
        | none => if w.startsWith "%" then failWith (noJob w) else number w
      match s.jobs.find? fun j => j.number == n with
      | none => setStatus 127
      | some j =>
        let j ← settleJob self j
        match j.finish with
        | none => throw .endless
        | some t =>
          modify fun s => { s with
            jobs := s.jobs.filter fun o => o.number != n
            clock := later s.clock t
            status := j.status }
          if 128 < j.status then write 2 (signalText (j.status - 128)).toList

/-! ## §9. Ends. -/

/-- End the script with an exit code. -/
def exit (words : List String) : Run PUnit := do
  match words with
  | [] => throw .exit
  | w :: _ =>
    let n ← number w
    setStatus n
    throw .exit

/-- Leave a function, or the script. -/
def leaveFunction (words : List String) : Run PUnit := do
  if let w :: _ := words then
    let n ← number w
    setStatus n
  modify fun s => { s with skip := .function }

/-- Leave loops, or go on with the next round of one. -/
def leaveLoop (next : Bool) (words : List String) : Run PUnit := do
  let n ← match words with
    | [] => pure 1
    | w :: _ =>
      let n ← number w
      if n == 0 then failWith s!"Illegal number: {w}"
      pure n
  let n := min n (← get).loops
  if 0 < n then
    modify fun s => { s with skip := if next then .next n else .leave n }
  setStatus 0

end Offside.Tool.Script
