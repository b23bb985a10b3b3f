/-
  Offside.CommandLine.Arguments
  ─────────────────────────────
  Reading the words of a command line.

  Each word is first looked at by itself: it is an option, the double dash
  after which there are no more options, or plain.  Long options may be cut
  short as long as one option is meant, and short options may stand together
  in one word.  Then the words are taken up from the left: an option with a
  value takes the plain word after it, and the first plain word that is left
  is the input.
-/
import Offside.CommandLine.Number
import Offside.CommandLine.Switch
import Offside.Options

namespace Offside.CommandLine

open Text

/-! ## §1. What is read, and what can be wrong. -/

/-- What an option is given: a value, or a double dash that is attached to it
and leaves it an empty list of values. -/
inductive Given (α : Type) where
  | value (a : α)
  | emptyList
  deriving Repr, DecidableEq

/-- What the words of a command line say. -/
structure Arguments where
  input : Option String := none
  output : Option String := none
  watch : Bool := false
  recursive : Bool := false
  minify : Bool := false
  indentWidth : Option (Given Int) := none
  indentStyle : Option (Given IndentStyle) := none
  noFormat : Bool := false
  formatTimeout : Option (Given Binary64) := none
  config : Option String := none
  init : Bool := false
  debug : Bool := false
  verbosity : Nat := 0
  deriving Repr, DecidableEq

/-- Why the words of a command line are refused. -/
inductive UsageError where
  | unrecognized (words : List String)
  | ambiguous (word : String) (candidates : List String)
  | valueMissing (option : Switch)
  | valueIgnored (option : Switch) (value : String)
  | notInteger (option : Switch) (value : String)
  | notNumber (option : Switch) (value : String)
  | notChoice (option : Switch) (value : String)
  deriving Repr, DecidableEq

/-- The wording of a refusal. -/
def UsageError.message : UsageError → String
  | .unrecognized words => "unrecognized arguments: " ++ " ".intercalate words
  | .ambiguous word candidates =>
    s!"ambiguous option: {word} could match " ++ ", ".intercalate candidates
  | .valueMissing o => s!"argument {o.title}: expected one argument"
  | .valueIgnored o value =>
    s!"argument {o.title}: ignored explicit argument {quotedString value}"
  | .notInteger o value => s!"argument {o.title}: invalid int value: {quotedString value}"
  | .notNumber o value => s!"argument {o.title}: invalid float value: {quotedString value}"
  | .notChoice o value =>
    s!"argument {o.title}: invalid choice: {quotedString value} "
      ++ "(choose from 'spaces', 'tabs')"

/-- Why a command line ends before anything is done. -/
inductive Exit where
  /-- The help text is asked for. -/
  | help
  /-- The version is asked for. -/
  | version
  /-- The words are refused. -/
  | usage (error : UsageError)
  deriving Repr, DecidableEq

/-- What such an end prints on the output. -/
def Exit.stdout : Exit → String
  | .help => helpText
  | .version => versionText
  | .usage _ => ""

/-- What such an end prints on the error output. -/
def Exit.stderr : Exit → String
  | .usage e => usageText ++ s!"{programName}: error: {e.message}\n"
  | _ => ""

/-- The exit code of such an end. -/
def Exit.code : Exit → Nat
  | .usage _ => 2
  | _ => 0

/-! ## §2. Words by themselves. -/

/-- What a word is. -/
inductive Word where
  /-- A word that is no option. -/
  | plain (text : String)
  /-- The first double dash. -/
  | dashes
  /-- An option under one of its spellings, with the value attached to it. -/
  | option (switch : Switch) (spelling : String) (attached : Option String)
  /-- A word that looks like an option and is none. -/
  | unknown (text : String)
  deriving Repr, DecidableEq

/-- The text of a word as it was typed, unless it is an option. -/
def Word.text : Word → String
  | .plain text | .unknown text => text
  | .dashes => "--"
  | .option _ spelling _ => spelling

/-- Whether a word is an option or looks like one. -/
def Word.isOption : Word → Bool
  | .option .. | .unknown _ => true
  | _ => false

/-- A word cut at its first equals sign, if it has one. -/
def cutEquals (cs : List Char) : Option (List Char × List Char) :=
  let before := cs.takeWhile (· != '=')
  match cs.drop before.length with
  | [] => none
  | _ :: after => some (before, after)

/-- Whether a word with a dash looks like a negative number. -/
def isNegativeNumber (cs : List Char) : Bool :=
  let body := if cs.getLast? == some '\n' then cs.dropLast else cs
  match body with
  | '-' :: digits =>
    let whole := digits.takeWhile isDigit
    match digits.drop whole.length with
    | [] => !whole.isEmpty
    | '.' :: places => !places.isEmpty && places.all isDigit
    | _ => false
  | _ => false

/-- The options that a word with two dashes may mean, cut short or not. -/
def longCandidates (cs : List Char) : List Word :=
  let (start, value) :=
    match cutEquals cs with
    | some (before, after) => (before, some (String.ofList after))
    | none => (cs, none)
  allSpellings.filterMap fun e =>
    if start.isPrefixOf e.1.toList then some (.option e.2 e.1 value) else none

/-- The option that a word with one dash starts with, and what is attached to
it. -/
def shortCandidates (cs : List Char) : List Word :=
  let start := String.ofList (cs.take 2)
  allSpellings.filterMap fun e =>
    if e.1 == start then some (.option e.2 e.1 (some (String.ofList (cs.drop 2)))) else none

/-- What a word that starts with a dash is, if it is not spelled out. -/
def guess (word : String) (cs : List Char) : Except Exit Word :=
  let candidates :=
    match cs with
    | '-' :: '-' :: _ => longCandidates cs
    | _ => shortCandidates cs
  match candidates with
  | [w] => .ok w
  | [] =>
    .ok (if isNegativeNumber cs || cs.contains ' ' then .plain word else .unknown word)
  | ws => .error (.usage (.ambiguous word (ws.map Word.text)))

/-- What a word is, before any double dash. -/
def wordOf (word : String) : Except Exit Word :=
  let cs := word.toList
  match cs with
  | '-' :: _ :: _ =>
    match Switch.named? word with
    | some s => .ok (.option s word none)
    | none =>
      match cutEquals cs with
      | some (before, after) =>
        let spelling := String.ofList before
        match Switch.named? spelling with
        | some s => .ok (.option s spelling (some (String.ofList after)))
        | none => guess word cs
      | none => guess word cs
  | _ => .ok (.plain word)

/-- What the words of a command line are, one by one. -/
def wordsOf : List String → Except Exit (List Word)
  | [] => .ok []
  | word :: rest =>
    if word == "--" then .ok (.dashes :: rest.map Word.plain)
    else do
      let w ← wordOf word
      return w :: (← wordsOf rest)

/-! ## §3. Taking up options. -/

/-- The arguments with an option that takes no value. -/
def Arguments.turnOn (a : Arguments) : Switch → Except Exit Arguments
  | .help => .error .help
  | .version => .error .version
  | .watch => .ok { a with watch := true }
  | .recursive => .ok { a with recursive := true }
  | .minify => .ok { a with minify := true }
  | .noFormat => .ok { a with noFormat := true }
  | .init => .ok { a with init := true }
  | .debug => .ok { a with debug := true }
  | .verbose => .ok { a with verbosity := a.verbosity + 1 }
  | _ => .ok a

/-- The arguments with an option that is given an empty list of values, which
counts as no text. -/
def Arguments.clear (a : Arguments) : Switch → Arguments
  | .output => { a with output := some "" }
  | .config => { a with config := some "" }
  | .indentWidth => { a with indentWidth := some .emptyList }
  | .formatTimeout => { a with formatTimeout := some .emptyList }
  | .indentStyle => { a with indentStyle := some .emptyList }
  | _ => a

/-- The arguments with an option and its value. -/
def Arguments.assign (a : Arguments) (s : Switch) (value : String) :
    Except Exit Arguments :=
  if value == "--" then .ok (a.clear s)
  else
    match s with
    | .output => .ok { a with output := some value }
    | .config => .ok { a with config := some value }
    | .indentWidth =>
      match integer? value with
      | some n => .ok { a with indentWidth := some (.value n) }
      | none => .error (.usage (.notInteger s value))
    | .formatTimeout =>
      match real? value with
      | some x => .ok { a with formatTimeout := some (.value x) }
      | none => .error (.usage (.notNumber s value))
    | .indentStyle =>
      match IndentStyle.ofName value with
      | .ok style => .ok { a with indentStyle := some (.value style) }
      | .error _ => .error (.usage (.notChoice s value))
    | _ => .ok a

/-- The options of a word of short options: those without a value, and the
last one with the value attached to it, if it takes one. -/
structure Cluster where
  flags : List Switch := []
  last : Option (Switch × Option String) := none

/-- Take a word of options apart.  `attached` holds the characters after the
option, each of which may be a short option of its own. -/
def cluster (s : Switch) (short : Bool) : List Char → Except Exit Cluster
  | [] =>
    if s.takesValue then .ok { last := some (s, some "") }
    else .error (.usage (.valueIgnored s ""))
  | c :: rest =>
    if s.takesValue then .ok { last := some (s, some (String.ofList (c :: rest))) }
    else if short then
      match Switch.named? (String.ofList ['-', c]) with
      | none => .error (.usage (.valueIgnored s (String.ofList (c :: rest))))
      | some next =>
        if rest.isEmpty then .ok { flags := [s], last := some (next, none) }
        else do
          let more ← cluster next true rest
          return { more with flags := s :: more.flags }
    else .error (.usage (.valueIgnored s (String.ofList (c :: rest))))

/-- The options that an option word stands for. -/
def clusterOf (s : Switch) (spelling : String) (attached : Option String) :
    Except Exit Cluster :=
  match attached with
  | none => .ok { last := some (s, none) }
  | some value => cluster s (spelling.length == 2) value.toList

/-! ## §4. Taking up words. -/

/-- How far the reading has come: the arguments so far, whether the input may
still come, and the words that nobody took. -/
structure Progress where
  arguments : Arguments := {}
  open? : Bool := true
  extras : List String := []

/-- The value of an option and the rest: the value attached to it, or the
plain word after it. -/
def valueFor (s : Switch) (attached : Option String) (rest : List Word) :
    Except Exit (String × List Word) :=
  match attached, rest with
  | some value, rest => .ok (value, rest)
  | none, .plain value :: rest => .ok (value, rest)
  | none, _ => .error (.usage (.valueMissing s))

/-- Take up an option word and the value it takes from the words after it. -/
def takeOption (a : Arguments) (s : Switch) (spelling : String)
    (attached : Option String) (rest : List Word) :
    Except Exit (Arguments × List Word) := do
  let group ← clusterOf s spelling attached
  match group.last with
  | none => return (← group.flags.foldlM Arguments.turnOn a, rest)
  | some (last, value) =>
    if last.takesValue then
      let (value, rest) ← valueFor last value rest
      let a ← group.flags.foldlM Arguments.turnOn a
      return (← a.assign last value, rest)
    else
      let a ← group.flags.foldlM Arguments.turnOn a
      return (← a.turnOn last, rest)

/-- Take up the words after the last option: the input, with a double dash on
either side of it, and words that nobody takes. -/
def takeLast (p : Progress) (words : List Word) : Progress :=
  if !p.open? then { p with extras := p.extras ++ words.map Word.text }
  else
    let input (text : String) (rest : List Word) : Progress :=
      { p with
        arguments := { p.arguments with input := some text }
        open? := false
        extras := p.extras ++ rest.map Word.text }
    match words with
    | .dashes :: .plain text :: rest => input text rest
    | .plain text :: .dashes :: rest => input text rest
    | .plain text :: rest => input text rest
    | _ => { p with open? := false }

/-- Take up words from the left.  An option takes at least its own word, so
the number of words bounds the number of steps. -/
def takeWords : Nat → Progress → List Word → Except Exit Progress
  | 0, p, words => .ok (takeLast p words)
  | fuel + 1, p, words =>
    if !words.any Word.isOption then .ok (takeLast p words)
    else
      match words with
      | .option s spelling attached :: rest => do
        let (arguments, rest) ← takeOption p.arguments s spelling attached rest
        takeWords fuel { p with arguments } rest
      | .unknown text :: rest => takeWords fuel { p with extras := p.extras ++ [text] } rest
      | word :: rest =>
        if p.open? then
          let arguments := { p.arguments with input := some word.text }
          takeWords fuel { p with arguments, open? := false } rest
        else takeWords fuel { p with extras := p.extras ++ [word.text] } rest
      | [] => .ok p

/-- **Read a command line.** -/
def Arguments.parse (argv : List String) : Except Exit Arguments := do
  let words ← wordsOf argv
  let p ← takeWords words.length {} words
  if p.extras.isEmpty then return p.arguments
  else throw (.usage (.unrecognized p.extras))

end Offside.CommandLine
