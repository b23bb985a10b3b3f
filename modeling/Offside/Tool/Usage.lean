/-
  Offside.Tool.Usage
  ──────────────────
  The options of a program.

  A word with one dash holds options of one letter, and one with two dashes
  an option by its name, which may be cut short as long as it is clear which
  one is meant.  Options may stand between other words unless the program
  wants them in front.
-/
import Offside.Tool.Program

namespace Offside.Tool

/-- Whether an option takes a value. -/
inductive Arity where
  | none
  | optional
  | required
  deriving DecidableEq

/-- What is wrong with the words of a call; a hint may follow it. -/
structure Misuse where
  message : String
  hint : Bool := true

/-- An option of a program, known by its first letter or name. -/
structure Flag where
  letters : List Char := []
  names : List String := []
  arity : Arity := .none
  /-- What is said of a letter that is known and must not be used. -/
  refusal : Option Misuse := none
  /-- What is wrong with a value, if anything is. -/
  fault? : String → Option Misuse := fun _ => none

/-- What an option is known by. -/
def Flag.key (f : Flag) : String :=
  match f.letters, f.names with
  | c :: _, _ => String.singleton c
  | [], name :: _ => name
  | [], [] => ""

/-- An option as it was used, with its value. -/
structure Used where
  key : String
  value : Option String := none

/-- The options and the other words of a call. -/
structure Usage where
  options : List Used := []
  operands : List String := []

/-- Whether an option was used. -/
def Usage.has (u : Usage) (key : String) : Bool := u.options.any fun o => o.key == key

/-- The value of the last use of an option. -/
def Usage.value? (u : Usage) (key : String) : Option String :=
  ((u.options.filter fun o => o.key == key).getLast?).bind (·.value)

/-! ## §1. Letters. -/

/-- The options in a word of letters.  The last of them may need the word
that follows. -/
def letterOptions (flags : List Flag) : List Char → Except Misuse (List Used × Option Flag)
  | [] => .ok ([], none)
  | c :: rest =>
    match flags.find? fun f => f.letters.contains c with
    | none => .error ⟨s!"invalid option -- '{c}'", true⟩
    | some f =>
      match f.refusal with
      | some m => .error { m with message := s!"{m.message} -- {c}" }
      | none =>
        match f.arity, rest with
        | .none, _ => do
          let (more, last) ← letterOptions flags rest
          return (⟨f.key, none⟩ :: more, last)
        | .optional, [] => .ok ([⟨f.key, none⟩], none)
        | .required, [] => .ok ([], some f)
        | _, rest => .ok ([⟨f.key, some (String.ofList rest)⟩], none)

/-! ## §2. Names. -/

/-- A name and the value after its equals sign. -/
def cutValue (cs : List Char) : String × Option String :=
  let name := cs.takeWhile (· != '=')
  match cs.drop name.length with
  | [] => (String.ofList name, none)
  | _ :: value => (String.ofList name, some (String.ofList value))

/-- The option that a name means, cut short or not. -/
def flagNamed (flags : List Flag) (name : String) : Except String (String × Flag) :=
  let all := flags.flatMap fun f => f.names.map fun n => (n, f)
  match all.find? fun e => e.1 == name with
  | some e => .ok e
  | none =>
    match all.filter fun e => name.toList.isPrefixOf e.1.toList with
    | [] => .error s!"unrecognized option '--{name}'"
    | [e] => .ok e
    | e :: more =>
      if more.all fun o => o.2.key == e.2.key then .ok e
      else
        let shown := (e :: more).map fun o => s!" '--{o.1}'"
        .error (s!"option '--{name}' is ambiguous; possibilities:" ++ String.join shown)

/-- The option of a word with two dashes, which may need the word that
follows. -/
def nameOption (flags : List Flag) (cs : List Char) : Except String (List Used × Option Flag) := do
  let (name, value) := cutValue cs
  match flagNamed flags name with
  | .error e => throw (if value.isSome && e.startsWith "unrecognized" then
      s!"unrecognized option '--{String.ofList cs}'" else e)
  | .ok (full, f) =>
    match f.arity, value with
    | .none, some _ => throw s!"option '--{full}' doesn't allow an argument"
    | .required, none => return ([], some f)
    | _, value => return ([⟨f.key, value⟩], none)

/-! ## §3. Words. -/

/-- What a program says if the value of an option is missing. -/
def missingValue (word : List Char) (f : Flag) : String :=
  match word with
  | '-' :: '-' :: name =>
    let full := f.names.find? fun n => name.isPrefixOf n.toList
    s!"option '--{full.getD (String.ofList name)}' requires an argument"
  | _ =>
    let letter := String.ofList (word.drop (word.length - 1))
    s!"option requires an argument -- '{letter}'"

/-- What is wrong with the value of an option, if anything is. -/
def Used.fault? (flags : List Flag) (o : Used) : Option Misuse := do
  let f ← flags.find? fun f => f.key == o.key
  f.fault? (← o.value)

/-- Tell the options from the other words.  With `ordered` the first word
that is no option ends them. -/
def usageOf (flags : List Flag) (ordered : Bool) (u : Usage) : List String → Except Misuse Usage
  | [] => .ok u
  | w :: rest =>
    if w == "--" then .ok { u with operands := u.operands ++ rest }
    else
      let found : Option (Except Misuse (List Used × Option Flag)) :=
        match w.toList with
        | '-' :: '-' :: name => some ((nameOption flags name).mapError fun e => ⟨e, true⟩)
        | '-' :: c :: letters => some (letterOptions flags (c :: letters))
        | _ => none
      match found with
      | none =>
        if ordered then .ok { u with operands := u.operands ++ w :: rest }
        else usageOf flags ordered { u with operands := u.operands ++ [w] } rest
      | some (.error e) => .error e
      | some (.ok (used, none)) =>
        match used.findSome? (Used.fault? flags) with
        | some m => .error m
        | none => usageOf flags ordered { u with options := u.options ++ used } rest
      | some (.ok (used, some f)) =>
        match rest with
        | [] => .error ⟨missingValue w.toList f, true⟩
        | value :: rest =>
          match f.fault? value with
          | some m => .error m
          | none =>
            let options := u.options ++ used ++ [⟨f.key, some value⟩]
            usageOf flags ordered { u with options } rest

/-- The options and the other words of a call, or a complaint. -/
def Call.usage (c : Call) (flags : List Flag) (ordered : Bool) (run : Usage → Finish) : Finish :=
  match usageOf flags ordered {} c.words with
  | .error m => if m.hint then c.misused m.message else c.fail m.message
  | .ok u => run u

end Offside.Tool
