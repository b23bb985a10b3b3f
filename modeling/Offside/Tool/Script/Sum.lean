/-
  Offside.Tool.Script.Sum
  ───────────────────────
  Arithmetic expressions.

  Numbers are machine words, and all operations wrap around.  What a branch
  that is not taken would divide by zero or assign has no effect.
-/
import Offside.Tool.Numeral
import Offside.Tool.Script.Basic

namespace Offside.Tool.Script

/-! ## §1. Tokens. -/

/-- A token of an expression. -/
inductive SumToken where
  | number (n : Int)
  | name (name : String)
  | operator (text : String)
  deriving DecidableEq

/-- The operators, the longer ones first. -/
def sumOperators : List String :=
  ["<<=", ">>=", "==", "!=", "<=", ">=", "<<", ">>", "&&", "||", "*=", "/=", "%=", "+=", "-=",
   "&=", "^=", "|=", "=", "<", ">", "&", "|", "^", "*", "/", "%", "+", "-", "!", "~", "?", ":",
   "(", ")"]

/-- The tokens of an expression. -/
def sumTokens : Nat → Octets → List SumToken
  | 0, _ => []
  | fuel + 1, cs =>
    match cs.dropWhile fun c => c == ' ' || c == '\t' || c == '\n' with
    | [] => []
    | c :: rest =>
      if isNameStart c then
        let name := (c :: rest).takeWhile isNameRest
        .name (String.ofList name) :: sumTokens fuel ((c :: rest).drop name.length)
      else
        match basedAt? (c :: rest) with
        | some (n, rest) => .number (min n mostWord) :: sumTokens fuel rest
        | none =>
          match sumOperators.find? fun o => o.toList.isPrefixOf (c :: rest) with
          | some o => .operator o :: sumTokens fuel ((c :: rest).drop o.length)
          | none => .operator (String.singleton c) :: sumTokens fuel rest

/-! ## §2. Operations. -/

/-- The rank of an operator between two numbers; one of a higher rank binds
more. -/
def rank? (o : String) : Option Nat :=
  match o with
  | "||" => some 1
  | "&&" => some 2
  | "|" => some 3
  | "^" => some 4
  | "&" => some 5
  | "==" | "!=" => some 6
  | "<" | "<=" | ">" | ">=" => some 7
  | "<<" | ">>" => some 8
  | "+" | "-" => some 9
  | "*" | "/" | "%" => some 10
  | _ => none

/-- A machine word as a number of its bits. -/
def bits (n : Int) : Nat := (n % Int.pow 2 64).toNat

/-- The number that bits stand for. -/
def ofBits (n : Nat) : Int := wrapped n

/-- A truth value as a number. -/
def truth (b : Bool) : Int := if b then 1 else 0

/-- The result of an operator between two numbers; nothing for a division by
zero. -/
def combine (o : String) (a b : Int) : Option Int :=
  match o with
  | "||" => some (truth (a != 0 || b != 0))
  | "&&" => some (truth (a != 0 && b != 0))
  | "|" => some (ofBits (bits a ||| bits b))
  | "^" => some (ofBits (bits a ^^^ bits b))
  | "&" => some (ofBits (bits a &&& bits b))
  | "==" => some (truth (a == b))
  | "!=" => some (truth (a != b))
  | "<" => some (truth (a < b))
  | "<=" => some (truth (a ≤ b))
  | ">" => some (truth (b < a))
  | ">=" => some (truth (b ≤ a))
  | "<<" => some (wrapped (a * Int.pow 2 (b % 64).toNat))
  | ">>" => some (a / Int.pow 2 (b % 64).toNat)
  | "+" => some (wrapped (a + b))
  | "-" => some (wrapped (a - b))
  | "*" => some (wrapped (a * b))
  | "/" => if b == 0 then none else some (wrapped (Int.tdiv a b))
  | "%" => if b == 0 then none else some (Int.tmod a b)
  | _ => none

/-! ## §3. Values. -/

/-- Why an expression has no value. -/
inductive SumError where
  | expecting (what : String)
  | divisionByZero
  | notNumber (text : String)

/-- The wording of such a reason, given the expression. -/
def SumError.message (expression : String) : SumError → String
  | .expecting what => s!"arithmetic expression: expecting {what}: \"{expression}\""
  | .divisionByZero => s!"arithmetic expression: division by zero: \"{expression}\""
  | .notNumber text => s!"Illegal number: {text}"

/-- What is left of an expression, and what was assigned in it. -/
structure Summing where
  tokens : List SumToken
  assigned : List (String × Int) := []

/-- A part of an expression at work. -/
abbrev SumRun := StateT Summing (Except SumError)

/-- The integer that a whole word writes, with blanks around it. -/
def wholeInteger? (cs : Octets) : Option Int :=
  match integerAt? cs with
  | some (n, rest) =>
    if rest.all isNumberBlank then some (max leastWord (min n mostWord)) else none
  | none => none

/-- The number that a name stands for. -/
def numberOf (lookUp : String → Option String) (name : String) : SumRun Int := do
  match (← get).assigned.find? fun a => a.1 == name with
  | some a => return a.2
  | none =>
    match lookUp name with
    | none => return 0
    | some text =>
      if text.isEmpty then return 0
      else
        match wholeInteger? text.toList with
        | some n => return n
        | none => throw (.notNumber text)

/-- Take the next token. -/
def nextToken : SumRun (Option SumToken) := do
  let s ← get
  set { s with tokens := s.tokens.drop 1 }
  return s.tokens.head?

/-- The next token, which stays. -/
def peekToken : SumRun (Option SumToken) := do return (← get).tokens.head?

/-- The operator of an assignment, which is empty for a plain one. -/
def assignmentOperator? (t : Option SumToken) : Option String :=
  match t with
  | some (.operator "=") => some ""
  | some (.operator o) =>
    if ["<<=", ">>=", "*=", "/=", "%=", "+=", "-=", "&=", "^=", "|="].contains o then
      some (String.ofList o.toList.dropLast)
    else none
  | _ => none

mutual

/-- A number, a name, or an expression in parentheses, with signs in front.
Unless `live`, names are not looked up. -/
def primary (lookUp : String → Option String) (live : Bool) (fuel : Nat) : SumRun Int :=
  match fuel with
  | 0 => throw (.expecting "primary")
  | fuel + 1 => do
    match ← nextToken with
    | some (.number n) => return n
    | some (.name name) => if live then numberOf lookUp name else return 0
    | some (.operator "(") =>
      let n ← assignment lookUp live fuel
      match ← nextToken with
      | some (.operator ")") => return n
      | _ => throw (.expecting "')'")
    | some (.operator "+") => primary lookUp live fuel
    | some (.operator "-") => return wrapped (-(← primary lookUp live fuel))
    | some (.operator "!") => return truth ((← primary lookUp live fuel) == 0)
    | some (.operator "~") => return -1 - (← primary lookUp live fuel)
    | _ => throw (.expecting "primary")

/-- An operand and the operators of a rank or above after it. -/
def ranked (lookUp : String → Option String) (live : Bool) (least : Nat) (fuel : Nat) : SumRun Int :=
  match fuel with
  | 0 => throw (.expecting "primary")
  | fuel + 1 => do
    let first ← primary lookUp live fuel
    operators lookUp live least first fuel

/-- The operators of a rank or above after an operand. -/
def operators (lookUp : String → Option String) (live : Bool) (least : Nat) (first : Int)
    (fuel : Nat) : SumRun Int :=
  match fuel with
  | 0 => throw (.expecting "primary")
  | fuel + 1 => do
    match ← peekToken with
    | some (.operator o) =>
      match rank? o with
      | none => return first
      | some r =>
        if r < least then return first
        else
          let _ ← nextToken
          let needed := !((o == "||" && first != 0) || (o == "&&" && first == 0))
          let second ← ranked lookUp (live && needed) (r + 1) fuel
          match combine o first second with
          | some n => operators lookUp live least n fuel
          | none =>
            if live then throw .divisionByZero
            else operators lookUp live least 0 fuel
    | _ => return first

/-- A choice between two values. -/
def conditional (lookUp : String → Option String) (live : Bool) (fuel : Nat) : SumRun Int :=
  match fuel with
  | 0 => throw (.expecting "primary")
  | fuel + 1 => do
    let test ← ranked lookUp live 1 fuel
    match ← peekToken with
    | some (.operator "?") =>
      let _ ← nextToken
      let yes ← assignment lookUp (live && test != 0) fuel
      match ← nextToken with
      | some (.operator ":") =>
        let no ← conditional lookUp (live && test == 0) fuel
        return if test != 0 then yes else no
      | _ => throw (.expecting "':'")
    | _ => return test

/-- An assignment, or a choice. -/
def assignment (lookUp : String → Option String) (live : Bool) (fuel : Nat) : SumRun Int :=
  match fuel with
  | 0 => throw (.expecting "primary")
  | fuel + 1 => do
    let tokens := (← get).tokens
    match tokens.head?, assignmentOperator? (tokens.drop 1).head? with
    | some (.name name), some o =>
      modify fun s => { s with tokens := s.tokens.drop 2 }
      let value ← assignment lookUp live fuel
      if !live then return value
      let result ← if o.isEmpty then pure (some value) else do
        pure (combine o (← numberOf lookUp name) value)
      match result with
      | some n =>
        let others := (← get).assigned.filter fun a => a.1 != name
        modify fun s => { s with assigned := (name, n) :: others }
        return n
      | none => throw .divisionByZero
    | _, _ => conditional lookUp live fuel

end

/-- **The value of an expression**, and what it assigns. -/
def sumOf (lookUp : String → Option String) (cs : Octets) :
    Except SumError (Int × List (String × Int)) := do
  let tokens := sumTokens (cs.length + 1) cs
  let (n, s) ← (assignment lookUp true (8 * tokens.length + 16)).run { tokens }
  if s.tokens.isEmpty then return (n, s.assigned) else throw (.expecting "EOF")

end Offside.Tool.Script
