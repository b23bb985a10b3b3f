/-
  Offside.Tool.Script.Condition
  ─────────────────────────────
  The command `test`, also written with brackets.

  The words are read from left to right.  Whether a word is an operator
  depends on the words that follow it, so that every text can be compared,
  even one that looks like an operator.
-/
import Offside.Tool.Numeral
import Offside.Tool.Program

namespace Offside.Tool.Script

/-! ## §1. Operators. -/

/-- The kinds of operators. -/
inductive ConditionKind where
  | unary
  | binary
  /-- `!`, `-a`, `-o`, `(` and `)`. -/
  | joining
  deriving DecidableEq

/-- The kind of a word, if it is an operator. -/
def conditionKind? (w : String) : Option ConditionKind :=
  if ["-r", "-w", "-x", "-e", "-f", "-d", "-c", "-b", "-p", "-u", "-g", "-k", "-s", "-t", "-z",
      "-n", "-h", "-O", "-G", "-L", "-S"].contains w then some .unary
  else if ["=", "!=", "<", ">", "-eq", "-ne", "-ge", "-gt", "-le", "-lt", "-nt", "-ot",
      "-ef"].contains w then some .binary
  else if ["!", "-a", "-o", "(", ")"].contains w then some .joining
  else none

/-- The operator that the first of some words is, if it is one there. -/
def operatorAt? (words : List String) : Option (String × ConditionKind) :=
  match words with
  | [] => none
  | w :: rest =>
    match conditionKind? w with
    | none => none
    | some .unary =>
      let operand : Bool := match rest with
        | [] => true
        | [_] => false
        | next :: _ => conditionKind? next == some .binary
      if operand then none else some (w, .unary)
    | some kind => if w == "(" && rest.isEmpty then none else some (w, kind)

/-! ## §2. Files and numbers. -/

/-- What can be asked about files. -/
structure Sights where
  look : String → Option FileEntry
  isDevice : String → Bool

/-- The integer that a word writes in decimal digits. -/
def decimalOf (w : String) : Except String Int :=
  match decimalAt? w.toList with
  | some (n, rest) =>
    if rest.all isNumberBlank && leastWord ≤ n && n ≤ mostWord then .ok n
    else .error s!"Illegal number: {w}"
  | none => .error s!"Illegal number: {w}"

/-- The modification time of an entry. -/
def timeOf : FileEntry → Rat
  | .file _ mtime _ => mtime.value
  | .directory => 0

/-- What a unary operator says of a word. -/
def unaryHolds (x : Sights) (o w : String) : Except String Bool :=
  let entry := x.look w
  let device := x.isDevice w
  let isFile := match entry with | some (.file ..) => true | _ => false
  let isDirectory := match entry with | some .directory => true | _ => false
  match o with
  | "-z" => .ok w.isEmpty
  | "-n" => .ok (!w.isEmpty)
  | "-t" => (decimalOf w).map fun _ => false
  | "-e" | "-r" | "-w" => .ok (device || entry.isSome)
  | "-O" | "-G" => .ok (device || entry.isSome)
  | "-f" => .ok isFile
  | "-d" => .ok isDirectory
  | "-c" => .ok device
  | "-s" => .ok (match entry with
    | some (.file content ..) => 0 < content.size
    | some .directory => true
    | none => false)
  | "-x" => .ok (match entry with
    | some (.file _ _ executable) => executable
    | some .directory => true
    | none => false)
  | _ => .ok false

/-- What a binary operator says of two words. -/
def binaryHolds (x : Sights) (o a b : String) : Except String Bool := do
  let compare (p : Int → Int → Bool) : Except String Bool := do
    return p (← decimalOf a) (← decimalOf b)
  match o with
  | "=" => return a == b
  | "!=" => return a != b
  | "<" => return decide (a < b)
  | ">" => return decide (b < a)
  | "-eq" => compare fun m n => m == n
  | "-ne" => compare fun m n => m != n
  | "-ge" => compare fun m n => decide (n ≤ m)
  | "-gt" => compare fun m n => decide (n < m)
  | "-le" => compare fun m n => decide (m ≤ n)
  | "-lt" => compare fun m n => decide (m < n)
  | o =>
    match x.look a, x.look b with
    | some first, some second =>
      return match o with
        | "-nt" => decide (timeOf second < timeOf first)
        | "-ot" => decide (timeOf first < timeOf second)
        | _ => a == b
    | _, _ => return false

/-! ## §3. Conditions. -/

/-- The answer to a part of a condition, and the words from its last one
on. -/
abbrev Answered := Except String (Bool × List String)

mutual

/-- Conditions joined by `-o`. -/
def anyCondition (x : Sights) (fuel : Nat) (words : List String) : Answered :=
  match fuel with
  | 0 => .ok (false, words)
  | fuel + 1 => do
    let (first, rest) ← allConditions x fuel words
    match operatorAt? (rest.drop 1) with
    | some ("-o", _) =>
      let (second, rest) ← anyCondition x fuel (rest.drop 2)
      return (first || second, rest)
    | _ => return (first, rest)

/-- Conditions joined by `-a`. -/
def allConditions (x : Sights) (fuel : Nat) (words : List String) : Answered :=
  match fuel with
  | 0 => .ok (false, words)
  | fuel + 1 => do
    let (first, rest) ← condition x fuel words
    match operatorAt? (rest.drop 1) with
    | some ("-a", _) =>
      let (second, rest) ← allConditions x fuel (rest.drop 2)
      return (first && second, rest)
    | _ => return (first, rest)

/-- A condition, which may be turned around. -/
def condition (x : Sights) (fuel : Nat) (words : List String) : Answered :=
  match fuel with
  | 0 => .ok (false, words)
  | fuel + 1 => do
    match operatorAt? words, words with
    | some ("!", _), _ :: rest =>
      if rest.isEmpty then return (true, words)
      let (answer, rest) ← condition x fuel rest
      return (!answer, rest)
    | some ("(", _), _ :: rest =>
      match operatorAt? rest with
      | some (")", _) => return (false, rest)
      | _ =>
        let (answer, rest) ← anyCondition x fuel rest
        match operatorAt? (rest.drop 1) with
        | some (")", _) => return (answer, rest.drop 1)
        | _ => throw "closing paren expected"
    | some (o, .unary), _ :: rest =>
      match rest with
      | [] => throw s!"{o}: argument expected"
      | w :: _ => return (← unaryHolds x o w, rest)
    | _, w :: rest =>
      match operatorAt? rest with
      | some (o, .binary) => binary w o (rest.drop 1)
      | _ => return (!w.isEmpty, words)
    | _, [] => return (false, words)
where
  /-- A comparison of a word with what follows an operator. -/
  binary (w o : String) (rest : List String) : Answered := do
    match rest with
    | [] => throw s!"{o}: argument expected"
    | second :: _ => return (← binaryHolds x o w second, rest)

end

/-- The answer to all words, and the complaint about what is left of them. -/
def wholeCondition (x : Sights) (words : List String) : Except String Bool := do
  let fuel := 4 * words.length + 8
  let (answer, rest) ← match words with
    | [a, o, b] =>
      -- three words with an operator between them are always a comparison
      if conditionKind? o == some .binary then do
        pure (← binaryHolds x o a b, [b])
      else anyCondition x fuel words
    | words => anyCondition x fuel words
  match rest with
  | w :: _ :: _ => throw (if w.isEmpty then "unexpected operator" else s!"{w}: unexpected operator")
  | _ => return answer

/-- **Whether a condition holds.**  Parentheses around three or four words,
and a `!` in front of them, come first. -/
def holds (x : Sights) : Nat → List String → Except String Bool
  | 0, words => wholeCondition x words
  | fuel + 1, words =>
    match words with
    | [] => .ok false
    | first :: rest =>
      let compared := match words with
        | [_, o, _] => conditionKind? o == some .binary
        | _ => false
      if !compared && (words.length == 3 || words.length == 4) then
        if first == "(" && words.getLast? == some ")" then holds x fuel rest.dropLast
        else if first == "!" then (holds x fuel rest).map (!·)
        else wholeCondition x words
      else wholeCondition x words

end Offside.Tool.Script
