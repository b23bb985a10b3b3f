/-
  Offside.Tool.Environment
  ────────────────────────
  The program `env`, which runs another program among given values.
-/
import Offside.Tool.Script.Run

namespace Offside.Tool

open Script

/-- The search path. -/
def searchPath : String := "/usr/bin:/bin"

/-- The options of `env`. -/
def environmentFlags : List Flag :=
  [{ letters := ['i'], names := ["ignore-environment"] },
   { letters := ['u'], names := ["unset"], arity := .required },
   { letters := ['C'], names := ["chdir"], arity := .required },
   { letters := ['S'], names := ["split-string"], arity := .required },
   { letters := ['v'], names := ["debug"] },
   { letters := ['0'], names := ["null"] }]

/-- The words of a text, cut at blanks. -/
def blankWords (s : String) : List String :=
  (s.toList.splitBy fun a b => a != ' ' && a != '\t' && b != ' ' && b != '\t').filterMap fun cs =>
    if cs == [' '] || cs == ['\t'] then none else some (String.ofList cs)

/-- The words with those that an option holds in one put in its place. -/
def withSplit : Nat → List String → List String
  | 0, words => words
  | _, [] => []
  | fuel + 1, w :: rest =>
    match w.toList, rest with
    | ['-', 'S'], [] => [w]
    | ['-', 'S'], text :: rest => withSplit fuel (blankWords text ++ rest)
    | '-' :: 'S' :: text, rest => withSplit fuel (blankWords (String.ofList text) ++ rest)
    | '-' :: 'v' :: 'S' :: text, rest =>
      "-v" :: withSplit fuel (("-S" ++ String.ofList text) :: rest)
    | ['-', 'u'], name :: rest | ['-', 'C'], name :: rest => w :: name :: withSplit fuel rest
    | ['-'], _ | ['-', '-'], _ => w :: rest
    | '-' :: name, rest =>
      let mark := "-split-string="
      if mark.toList.isPrefixOf name then
        withSplit fuel (blankWords (String.ofList (name.drop mark.length)) ++ rest)
      else w :: withSplit fuel rest
    | _, rest => w :: rest

/-- A call of `env` that is given up. -/
def Call.cancelled (c : Call) (f : Call → Finish) : Finish := { f c with code := 125 }

/-- A value set among others. -/
def withValue (values : List (String × String)) (word : String) : List (String × String) :=
  let (name, value) := cutValue word.toList
  values.filter (fun v => v.1 != name) ++ [(name, value.getD "")]

/-- What a name leads to in the directories of a search path.  A file that
must not be started is passed over, but not forgotten. -/
def searchAmong (find : Files → String → Resolved) (files : Files) (name : String) :
    List String → Bool → FileCause → Resolved × String
  | [], denied, last => (.refused (if denied then .denied else last), name)
  | directory :: more, denied, last =>
    let path := pathIn directory name
    match find files path with
    | .forbidden | .refused .denied => searchAmong find files name more true last
    | .absent cause | .refused cause =>
      if cause.isMissing then searchAmong find files name more denied cause
      else (.refused cause, name)
    | found => (found, path)

/-- What a name leads to, and its path. -/
def foundAmong (find : Files → String → Resolved) (c : Call) (name : String) : Resolved × String :=
  if name.isEmpty then (.absent .notFound, name)
  else if name.contains '/' then (find c.files name, name)
  else
    let path := ((c.environment.find? fun v => v.1 == "PATH").map (·.2)).getD searchPath
    searchAmong find c.files name (path.splitOn ":") false .notFound

/-- The program that reads files which do not say what they are written in. -/
def plainReader : String := "/bin/sh"

/-- What is said if a word may be meant to be more than one. -/
def splitHint : String := "use -[v]S to pass options in shebang lines"

/-- Run the program that words name. -/
def startAmong (find : Files → String → Resolved) (c : Call) (said : Octets) (name : String)
    (words : List String) : Finish :=
  let before := if said.isEmpty then [] else [Write.err said]
  let run (program : Program) (c : Call) : Finish :=
    let f := program c
    { f with writes := before ++ f.writes }
  let refused (cause : FileCause) : Finish :=
    let isMissing := cause == .notFound
    let hint :=
      if isMissing && name.toList.any isNumberBlank then
        [Write.err (c.complaint splitHint)]
      else []
    { code := if isMissing then 127 else 126
      writes := before ++ .err (c.complaint s!"{curly name}: {cause.text}") :: hint }
  match foundAmong find c name with
  | (.ready program, _) => run program { c with name, words }
  | (.noFormat _, path) =>
    match find c.files plainReader with
    | .ready program => run program { c with name := plainReader, words := path :: words }
    | _ => refused .notExecutable
  | (.forbidden, _) => refused .denied
  | (.absent cause, _) | (.refused cause, _) => refused cause

/-- What is said of a call before its program is run. -/
def environmentReport (cleaned : Bool) (dropped given : List String) (directory : Option String)
    (words : List String) : String :=
  let first :=
    if cleaned then ["cleaning environ"] else dropped.map fun n => s!"unset:    {n}"
  let set := given.map fun w => s!"setenv:   {w}"
  let moved := directory.toList.map fun d => s!"chdir:    {quotedForShell d}"
  let run := words.head?.toList.map fun w => s!"executing: {w}"
  let shown := words.zipIdx.map fun p => s!"   arg[{p.2}]= {curly p.1}"
  String.join ((first ++ set ++ moved ++ run ++ shown).map (· ++ "\n"))

/-- **Run a program named by a word**, among values that other words give;
or write the values. -/
def env (find : Files → String → Resolved) (c : Call) : Finish :=
  let room := (c.words.map String.length).foldl (· + · + 1) 1
  match usageOf environmentFlags true {} (withSplit room c.words) with
  | .error m =>
    let isBlank := " \t\n\x0b\x0c\r".toList.any fun b => m.message == s!"invalid option -- '{b}'"
    let hint := if isBlank then s!"\n{c.name}: {splitHint}" else ""
    c.cancelled (·.misused (m.message ++ hint))
  | .ok u =>
    let bare := u.operands.head? == some "-"
    let words := if bare then u.operands.drop 1 else u.operands
    let dropped := u.options.filterMap fun o => if o.key == "u" then o.value else none
    let given := words.takeWhile fun w => w.contains '='
    let cleaned := u.has "i" || bare
    let kept := if cleaned then [] else c.environment.filter fun v => !dropped.contains v.1
    let environment := given.foldl withValue kept
    let words := words.drop given.length
    let directory := u.value? "C"
    let report := environmentReport cleaned dropped given directory words
    let said := if u.has "v" then report.toList else []
    match if cleaned then none else dropped.find? fun n => n.isEmpty || n.contains '=' with
    | some name => c.cancelled (·.fail s!"cannot unset {curly name}: Invalid argument")
    | none =>
      match words, u.has "0", directory with
      | _ :: _, true, _ => c.cancelled (·.misused "cannot specify --null (-0) with command")
      | [], _, some _ => c.cancelled (·.misused "must specify command with --chdir (-C)")
      | [], null, none =>
        let stop := if null then "\x00" else "\n"
        let lines := environment.map fun v => s!"{v.1}={v.2}{stop}"
        let f := Finish.checked { writes := [.err said, .out (String.join lines).toList] } c
        if f.code == 0 then f else { f with code := 125 }
      | name :: words, false, none => startAmong find { c with environment } said name words
      | name :: words, false, some directory =>
        let path := pathOf directory
        match directory.isEmpty, c.files.stat path, c.files.locate path with
        | false, .ok .directory, .ok home =>
          let f := startAmong find
            { c with environment, files := { c.files with home } } said name words
          { f with files := f.files.map fun files => { files with home := c.files.home } }
        | false, .error e, _ =>
          c.cancelled (·.fail s!"cannot change directory to {quotedForShell directory}: {e.reason}")
        | false, _, _ =>
          c.cancelled (·.fail s!"cannot change directory to {quotedForShell directory}: Not a directory")
        | true, _, _ =>
          c.cancelled (·.fail "cannot change directory to '': No such file or directory")

end Offside.Tool
