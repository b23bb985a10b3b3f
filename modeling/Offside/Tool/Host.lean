/-
  Offside.Tool.Host
  ─────────────────
  A host with a handful of programs.

  This is a stand-in for the machine on which a formatter command runs, so that
  a compiler with such a command can be run at all.  It has no more programs than
  the commands that are run with it need, and these do no more than is asked of
  them there.  Nothing is proved of it: whatever is said about formatters is said
  of every host (`Tool.Host`), and the modules below `Offside.Tool` other than
  `Outcome` can be exchanged for another one.

  Programs stand in the system directories, beside the files that are given.
  Any other file must be executable and say on its first line which program
  is to read it.  Programs that start programs are followed to a fixed depth;
  what goes deeper does not end.
-/
import Offside.Tool.Copy
import Offside.Tool.Edges
import Offside.Tool.Environment
import Offside.Tool.Interpreter
import Offside.Tool.Links
import Offside.Tool.Pause

namespace Offside.Tool

open Script

/-! ## §1. The system. -/

/-- The programs that start no others. -/
def programs : List (String × Program) :=
  [("cat", cat), ("echo", echo), ("false", failing), ("head", head), ("ln", link),
   ("printf", printf), ("rm", remove), ("sleep", sleep), ("tail", tail), ("tee", tee),
   ("tr", translate), ("true", succeed), ("yes", yes)]

/-- The programs that start others. -/
def starters : List String := ["dash", "env", "sh"]

/-- The directories in which programs stand. -/
def systemDirectories : List Location := [["usr", "bin"], ["bin"]]

/-- The directories of the system that are always there. -/
def otherDirectories : List Location :=
  [["boot"], ["dev"], ["etc"], ["home"], ["lib"], ["lib64"], ["media"], ["mnt"], ["opt"], ["proc"],
   ["root"], ["run"], ["sbin"], ["srv"], ["sys"], ["tmp"], ["usr", "include"], ["usr", "lib"],
   ["usr", "local", "bin"], ["usr", "local", "lib"], ["usr", "sbin"], ["usr", "share"],
   ["usr", "src"], ["var", "lib"], ["var", "log"], ["var", "tmp"]]

/-- The files of the system that are no programs. -/
def otherFiles : List Location :=
  ["fstab", "group", "hostname", "hosts", "os-release", "passwd", "profile", "resolv.conf",
   "shells"].map fun name => ["etc", name]

/-- The files of the system beside those that are given. -/
def withSystem (files : Files) : Files :=
  let directories := otherDirectories ++ systemDirectories
  let files := directories.foldl Files.openTo files
  let names := starters ++ programs.map (·.1)
  let time := Binary64.ofRatio false 0 1
  let entries := systemDirectories.flatMap fun d =>
    names.map fun n => (d ++ [n], FileEntry.file .empty time true)
  let others := otherFiles.map fun loc => (loc, FileEntry.file .empty time false)
  { files with entries := files.entries ++ entries ++ others }

/-- The program at a location of the system. -/
def systemName? (loc : Location) : Option String :=
  if systemDirectories.contains loc.dropLast then loc.getLast? else none

/-- A path of which a part at the start is a link. -/
def followed (p : Path) : Path :=
  match p.anchor, p.parts with
  | .working, _ => p
  | _, "bin" :: rest => { p with parts := "usr" :: "bin" :: rest }
  | _, _ => p

/-! ## §2. Files as programs. -/

/-- A program that does not end. -/
def endless : Program := fun _ => { seconds := none }

/-- How many files may follow each other, each the one that is to read the
one before; the program at their end is one of them. -/
def maxReaders : Nat := 6

/-- **What the path that a word names leads to**, if `system` gives the
programs of the system.  A file that names a program is handed to it, by its
path and behind the argument for it. -/
def load (system : String → Option Program) (files : Files) : Nat → String → Resolved
  | readers, word =>
    let path := followed (pathOf word)
    match isDevice word, files.stat path, files.locate path with
    | true, _, _ | _, .ok .directory, _ => .forbidden
    | _, .error (.refused cause _), _ => .absent cause
    | _, .error _, _ | _, _, .error _ => .absent .notFound
    | _, .ok (.file bytes _ executable), .ok loc =>
      if !executable then .forbidden
      else
        match readers, systemName? loc with
        | 0, _ => .refused .tooManyLinks
        | _ + 1, some name =>
          match system name with
          | some program => .ready program
          | none => .absent .notFound
        | readers + 1, none =>
          match Interpreter.ofBytes? bytes with
          | none => .noFormat (looksBinary bytes)
          | some i =>
            match load system files readers i.path with
            | .ready program => .ready fun c =>
                program { c with name := i.path, words := i.argument.toList ++ word :: c.words }
            | .absent cause | .refused cause => .refused cause
            | .forbidden => .refused .denied
            | .noFormat _ => .noFormat (looksBinary bytes)

/-- The programs of the system; those that start others are followed to a
depth. -/
def systemProgram : Nat → String → Option Program
  | 0, _ => some endless
  | depth + 1, name =>
    let find (files : Files) (word : String) : Resolved :=
      load (systemProgram depth) files maxReaders word
    match name with
    | "sh" | "dash" => some (shell ⟨find, (systemProgram depth "sh").getD endless⟩)
    | "env" => some (env find)
    | name => (programs.find? fun p => p.1 == name).map fun p => checking p.2

/-! ## §3. The host. -/

/-- How deep programs may start programs. -/
def maxDepth : Nat := 12

/-- The time that it takes to start a program. -/
def startTime : Rat := 1 / 1000

/-- The longest word that a program can be called with, in bytes. -/
def maxWordBytes : Nat := 131071

/-- The most bytes of all words together. -/
def maxWordsBytes : Nat := Nat.pow 2 21 - 4096

/-- Whether a program cannot be called with so many or such long words. -/
def isTooMuch (words : List String) : Bool :=
  let sizes := words.map String.utf8ByteSize
  (sizes.any fun n => maxWordBytes < n) || maxWordsBytes < sizes.foldl (· + · + 9) 0

/-- The files as they are after a call, without those of the system. -/
def withoutSystem (before after : Files) : Files :=
  let isOwn (loc : Location) : Bool := before.home.isPrefixOf loc
  { before with
    entries := (before.entries.filter fun e => !isOwn e.1) ++ after.entries.filter (isOwn ·.1)
    links := (before.links.filter fun l => !isOwn l.1) ++ after.links.filter (isOwn ·.1)
    writes := after.writes }

/-- Run a program within a time limit, among files. -/
def runWithin (limit : Rat) (files : Files) (program : Program) (c : Call) : Outcome :=
  if limit ≤ 0 then .timedOut
  else
    let f := program c
    match f.seconds with
    | none => .timedOut
    | some seconds =>
      if limit < seconds + startTime then .timedOut
      else
        let after := f.files.map (withoutSystem files)
        .finished f.code (toBytes f.stdout) (toBytes f.stderr) after

/-- The path of a command that is looked for in the system. -/
def commandPath (word : String) : String :=
  if word.contains '/' then word else "/usr/bin/" ++ word

/-- **The host.** -/
def Host.small : Host := fun files r =>
  match r.command with
  | [] => .notFound
  | word :: words =>
    let all := withSystem files
    let path := commandPath word
    if word.isEmpty || word.contains '\x00' then .notFound
    else
      match load (systemProgram maxDepth) all maxReaders (octetString path) with
      | .absent _ | .forbidden => .notFound
      | found =>
        if words.any fun w => w.contains '\x00' then .nullInWord
        else if isTooMuch (path :: words) then .cannotStart (.refused .tooManyWords path)
        else
          match found with
          | .ready program =>
            match r.timeout.limit with
            | .error reason => .badTimeout reason
            | .ok limit =>
              runWithin limit files program
                { name := octetString path, words := words.map octetString
                  input := ofBytes r.input, files := all
                  environment := [("PATH", searchPath)] }
          | .refused cause => .cannotStart (.refused cause path)
          | _ => .cannotStart (.refused .notExecutable path)

end Offside.Tool
