/-
  Offside.Tool.Script.Reader
  ──────────────────────────
  Reading scripts.

  A script is read one complete command at a time, so that what stands in
  front of a fault is still run.  A token is read only when it is wanted,
  since it depends on its place whether a word is a keyword and whether a
  newline counts.  Every step goes one level down or takes some of the text;
  `fuel` bounds the levels.
-/
import Offside.Tool.Script.Basic

namespace Offside.Tool.Script

/-! ## §1. Tokens. -/

/-- What stands in front of a file name in a redirection. -/
inductive Arrow where
  | file (direction : Direction)
  /-- The texts of the script up to a mark; `stripped` drops the tabs at the
  start of lines. -/
  | document (stripped : Bool)

/-- A token. -/
inductive Token where
  | finish
  | newline
  /-- One of `;`, `&`, `&&`, `||`, `|`, `(`, `)` and `;;`. -/
  | operator (text : String)
  | redirect (number : Nat) (arrow : Arrow)
  /-- A word, and whether a part of it was quoted. -/
  | word (word : Word) (quoted : Bool)
  | keyword (text : String)

/-- A token as it is named in a complaint. -/
def Token.title : Token → String
  | .finish => "end of file"
  | .newline => "newline"
  | .operator text | .keyword text => s!"\"{text}\""
  | .redirect .. => "redirection"
  | .word .. => "word"

/-- Whether a token is an operator. -/
def Token.isOperator (t : Token) (text : String) : Bool :=
  match t with
  | .operator other => other == text
  | _ => false

/-- Whether a token is a keyword. -/
def Token.isKeyword (t : Token) (text : String) : Bool :=
  match t with
  | .keyword other => other == text
  | _ => false

/-- Whether a token ends a list of commands. -/
def Token.endsList : Token → Bool
  | .finish => true
  | .operator text => text == ")" || text == ";;"
  | .keyword text =>
    ["do", "done", "elif", "else", "esac", "fi", "then", "\x7d"].contains text
  | _ => false

/-- The text of a word that was written without quotes and values. -/
def plainText? : Word → Option String
  | [.text chars false] => some (String.ofList chars)
  | _ => none

/-! ## §2. Reading. -/

/-- A text of the script that is still to be read. -/
structure Pending where
  index : Nat
  mark : Octets
  stripped : Bool
  quoted : Bool

/-- How far reading has come. -/
structure Reading where
  rest : Octets
  line : Nat := 1
  /-- A token that was read and not used. -/
  back : Option Token := none
  pending : List Pending := []
  /-- The texts of the script. -/
  documents : Array Word := #[]

/-- Something that reads. -/
abbrev Read := StateT Reading (Except Fault)

/-- Give up. -/
def stop {α : Type} (message : String) : Read α := do
  throw ⟨"Syntax error: " ++ message, (← get).line⟩

/-- Give up at a token that is not wanted. -/
def unexpected {α : Type} (t : Token) : Read α := stop s!"{t.title} unexpected"

/-- Give up at a token where another one is wanted. -/
def expecting {α : Type} (t : Token) (wanted : String) : Read α :=
  stop s!"{t.title} unexpected (expecting {wanted})"

/-- Drop continued line ends in front of a text; the lines that were
dropped are counted. -/
def joinLines : Octets → Octets × Nat
  | '\\' :: '\n' :: rest =>
    let (cs, n) := joinLines rest
    (cs, n + 1)
  | cs => (cs, 0)

/-- The next byte, after continued line ends. -/
def peek : Read (Option Char) := do
  let s ← get
  let (rest, n) := joinLines s.rest
  set { s with rest, line := s.line + n }
  return rest.head?

/-- Take bytes. -/
def advance (n : Nat) : Read PUnit :=
  modify fun s => { s with
    rest := s.rest.drop n, line := s.line + (s.rest.take n).count '\n' }

/-- Take a byte if it comes next. -/
def accept (c : Char) : Read Bool := do
  if (← peek) == some c then
    advance 1
    return true
  else return false

/-- Take the bytes at the start that are all of a kind. -/
def takeRun (p : Char → Bool) : Read Octets := do
  let run := (← get).rest.takeWhile p
  advance run.length
  return run

/-- Take a name, which may go on after a continued line end. -/
def takeName (p : Char → Bool) : Nat → Read Octets
  | 0 => return []
  | fuel + 1 => do
    match ← peek with
    | some c =>
      if p c then
        let run ← takeRun p
        return run ++ (← takeName p fuel)
      else return []
    | none => return []

/-- Put a token back. -/
def pushBack (t : Token) : Read PUnit := modify fun s => { s with back := some t }

/-! ## §3. Places of a word. -/

/-- Where a piece of a word stands. -/
inductive Place where
  /-- In a word of a command. -/
  | open
  /-- Between braces, in a word without quotes. -/
  | braces
  /-- Between double quotes. -/
  | double
  /-- Between braces, between double quotes. -/
  | doubleBraces
  /-- In a text of the script. -/
  | document
  /-- Between braces, in a text of the script. -/
  | documentBraces
  /-- In an arithmetic expression, at a number of open parentheses. -/
  | sum (level : Nat)
  deriving DecidableEq

/-- Whether what stands there is quoted. -/
def Place.isQuoted : Place → Bool
  | .open | .braces => false
  | _ => true

/-- Where the word between braces stands. -/
def Place.inBraces : Place → Form → Place
  | _, .withoutStart _ | _, .withoutEnd _ => .braces
  | .open, _ | .braces, _ => .braces
  | .document, _ | .documentBraces, _ => .documentBraces
  | _, _ => .doubleBraces

/-- What is missing if the text ends there. -/
def Place.fault? : Place → Option String
  | .open | .document => none
  | .braces | .documentBraces => some "Missing '\x7d'"
  | .double | .doubleBraces => some "Unterminated quoted string"
  | .sum _ => some "Missing '))'"

/-- Whether a byte ends a word of a command. -/
def endsWord (c : Char) : Bool := " \t\n;&|()<>".toList.contains c

/-- Whether a byte stands for itself at a place. -/
def Place.isPlain (p : Place) (c : Char) : Bool :=
  if c == '\\' || c == '$' || c == '\x60' then false
  else
    match p with
    | .open => !endsWord c && c != '\'' && c != '"'
    | .braces => c != '\'' && c != '"' && c != '\x7d'
    | .double => c != '"'
    | .doubleBraces | .documentBraces => c != '"' && c != '\x7d'
    | .document => true
    | .sum _ => c != '(' && c != ')'

/-- The bytes that a backslash and a byte stand for at a place. -/
def Place.escaped (p : Place) (c : Char) : Octets :=
  let bare :=
    match p with
    | .open | .braces => true
    | .double | .sum _ => c == '\\' || c == '\x60' || c == '$' || c == '"'
    | .document => c == '\\' || c == '\x60' || c == '$'
    | .doubleBraces | .documentBraces =>
      c == '\\' || c == '\x60' || c == '$' || c == '"' || c == '\x7d'
  if bare then [c] else ['\\', c]

/-! ## §4. Texts of the script. -/

/-- A line, without its end, and what follows it; nothing follows the last
line. -/
def cutLine (cs : Octets) : Octets × Option Octets :=
  let line := cs.takeWhile (· != '\n')
  match cs.drop line.length with
  | _ :: rest => (line, some rest)
  | [] => (line, none)

/-- Whether a line goes on in the next one. -/
def isContinued (line : Octets) : Bool :=
  (line.reverse.takeWhile (· == '\\')).length % 2 == 1

/-- The lines in front of a mark, and what follows it. -/
def documentLines (p : Pending) : Nat → Bool → Octets → Octets × Octets
  | 0, _, cs => ([], cs)
  | fuel + 1, continued, cs =>
    if cs.isEmpty then ([], [])
    else
      let (line, rest) := cutLine cs
      let body := if p.stripped && !continued then line.dropWhile (· == '\t') else line
      if body == p.mark && !continued then ([], rest.getD [])
      else
        match rest with
        | none => (body, [])
        | some rest =>
          let (more, after) := documentLines p fuel (!p.quoted && isContinued line) rest
          (body ++ '\n' :: more, after)

/-! ## §5. Backquotes. -/

/-- The script between backquotes, and what follows it. -/
def backquoted (quoted : Bool) : Octets → Option (Octets × Octets)
  | [] => none
  | '\x60' :: rest => some ([], rest)
  | '\\' :: '\n' :: rest => backquoted quoted rest
  | '\\' :: c :: rest =>
    let kept :=
      if c == '\\' || c == '\x60' || c == '$' || (quoted && c == '"') then [c] else ['\\', c]
    (backquoted quoted rest).map fun p => (kept ++ p.1, p.2)
  | c :: rest => (backquoted quoted rest).map fun p => (c :: p.1, p.2)

/-! ## §6. Parameters. -/

/-- Whether a byte names a value of the shell itself. -/
def isSpecial (c : Char) : Bool := c.isDigit || "*@!?$#-".toList.contains c

/-- The name after an opening brace, and whether its length is wanted.  No
name is understood if there is none. -/
def bracedName (fuel : Nat) : Read (Option (String × Bool)) := do
  match ← peek with
  | none => return none
  | some c =>
    if isNameStart c then return some (String.ofList (← takeName isNameRest fuel), false)
    else if c.isDigit then return some (String.ofList (← takeName Char.isDigit fuel), false)
    else if c == '#' then
      advance 1
      match ← peek with
      | none => return some ("#", false)
      | some d =>
        if isNameStart d then return some (String.ofList (← takeName isNameRest fuel), true)
        else if d.isDigit then return some (String.ofList (← takeName Char.isDigit fuel), true)
        else if d != '\x7d' && isSpecial d && ((← get).rest.drop 1).head? == some '\x7d' then
          advance 1
          return some (String.singleton d, true)
        else return some ("#", false)
    else if isSpecial c then
      advance 1
      return some (String.singleton c, false)
    else return none

/-- What is made of the value of a name.  A closing brace is left where it
is. -/
def formOf (length : Bool) : Read Form := do
  let next ← peek
  if length then return if next == some '\x7d' then .length else .bad
  let operator (empty : Bool) : Read Form := do
    match ← peek with
    | some '-' => advance 1; return .instead empty
    | some '=' => advance 1; return .assigned empty
    | some '?' => advance 1; return .required empty
    | some '+' => advance 1; return .given empty
    | some _ => advance 1; return .bad
    | none => return .bad
  match next with
  | some '\x7d' => return .plain
  | some ':' =>
    advance 1
    operator true
  | some '%' =>
    advance 1
    return .withoutEnd (← accept '%')
  | some '#' =>
    advance 1
    return .withoutStart (← accept '#')
  | _ => operator false

/-! ## §7. Words and commands. -/

/-- Which commands a list may hold. -/
inductive ListKind where
  /-- Those of one line. -/
  | line
  /-- At least one. -/
  | some
  /-- Any number. -/
  | any
  deriving DecidableEq

/-- A list of commands, and whether the script ended in front of it. -/
abbrev Listed := Option Command × Bool

/-- Two commands after each other. -/
def andThen (first : Option Command) (second : Command) : Command :=
  match first with
  | none => second
  | some first => .sequence first second

mutual

/-- Read the pieces of a word at a place.  `done` are the pieces so far, in
reverse; the second answer is whether anything was quoted. -/
def pieces (fuel : Nat) (p : Place) (quoted : Bool) (done : List Piece) :
    Read (List Piece × Bool) :=
  match fuel with
  | 0 => stop "too deep"
  | fuel + 1 => do
    let here := p.isQuoted
    let go (p : Place) (quoted : Bool) (more : List Piece) : Read (List Piece × Bool) :=
      pieces fuel p quoted (more.reverse ++ done)
    let run ← takeRun p.isPlain
    if !run.isEmpty then go p quoted [.text run here]
    else
      match (← get).rest with
      | [] =>
        match p.fault? with
        | some message => stop message
        | none => return (done.reverse, quoted)
      | ['\\'] =>
        advance 1
        go p quoted [.text ['\\'] true]
      | '\\' :: '\n' :: _ =>
        advance 2
        go p quoted []
      | '\\' :: c :: _ =>
        advance 2
        go p true [.text (p.escaped c) true]
      | '$' :: _ =>
        advance 1
        let piece ← dollar fuel p
        go p quoted [piece]
      | '\x60' :: rest =>
        match backquoted here rest with
        | none =>
          advance (rest.length + 1)
          stop "EOF in backquote substitution"
        | some (text, after) =>
          let s ← get
          let line := s.line + (rest.take (rest.length - after.length)).count '\n'
          let inner : Reading := { rest := text, documents := s.documents }
          match (list fuel .any .none true).run inner with
          | .error fault => throw fault
          | .ok ((body, _), inner) =>
            set { s with rest := after, line, documents := inner.documents }
            go p quoted [.output body here]
      | c :: rest =>
        match p, c with
        | .open, '\'' | .braces, '\'' =>
          let body := rest.takeWhile (· != '\'')
          advance (1 + body.length)
          if (← get).rest.isEmpty then stop "Unterminated quoted string"
          advance 1
          go p true [.text body true]
        | .open, '"' | .braces, '"' =>
          advance 1
          let (body, _) ← pieces fuel .double true []
          go p true [.enclosed body]
        | .doubleBraces, '"' | .documentBraces, '"' =>
          advance 1
          let (body, _) ← pieces fuel .double true []
          go p true body
        | .double, _ | .braces, _ | .doubleBraces, _ | .documentBraces, _ =>
          advance 1
          return (done.reverse, quoted)
        | .sum level, '(' =>
          advance 1
          go (.sum (level + 1)) quoted [.text ['('] true]
        | .sum (level + 1), _ =>
          advance 1
          go (.sum level) quoted [.text [')'] true]
        | .sum 0, _ =>
          advance 1
          if ← accept ')' then return (done.reverse, quoted)
          else go p quoted [.text [')'] true]
        | .open, _ | .document, _ => return (done.reverse, quoted)

/-- Read what follows a dollar sign. -/
def dollar (fuel : Nat) (p : Place) : Read Piece :=
  match fuel with
  | 0 => stop "too deep"
  | fuel + 1 => do
    let here := p.isQuoted
    match ← peek with
    | some '(' =>
      advance 1
      if ← accept '(' then
        let (body, _) ← pieces fuel (.sum 0) false []
        return .sum body here
      else
        let pending := (← get).pending
        modify fun s => { s with pending := [], back := none }
        let (body, _) ← list fuel .any .none true
        let t ← token fuel false false
        if !t.isOperator ")" then expecting t "\")\""
        documents fuel
        modify fun s => { s with pending }
        return .output body here
    | some '\x7b' =>
      advance 1
      let named ← bracedName fuel
      let form ← match named with
        | some (_, length) => formOf length
        | none =>
          if (← peek).isSome && (← peek) != some '\x7d' then advance 1
          pure .bad
      match form with
      | .plain =>
        advance 1
        return .value ((named.map (·.1)).getD "") .plain [] here
      | form =>
        let (word, _) ← pieces fuel (p.inBraces form) false []
        return .value ((named.map (·.1)).getD "") form word here
    | some c =>
      if isNameStart c then
        return .value (String.ofList (← takeName isNameRest fuel)) .plain [] here
      else if isSpecial c then
        advance 1
        return .value (String.singleton c) .plain [] here
      else return .text ['$'] here
    | none => return .text ['$'] here

/-- Read the texts of the script that are due. -/
def documents (fuel : Nat) : Read PUnit :=
  match fuel with
  | 0 => return
  | fuel + 1 => do
    let s ← get
    match s.pending with
    | [] => return
    | d :: more =>
      let (text, after) := documentLines d (s.rest.length + 1) false s.rest
      let line := s.line + (s.rest.take (s.rest.length - after.length)).count '\n'
      if d.quoted then
        set { s with
          rest := after, line, pending := more
          documents := s.documents.setIfInBounds d.index [.text text true] }
      else
        set { s with rest := text, pending := [], back := none }
        let (word, _) ← pieces fuel .document false []
        modify fun inner => { s with
          rest := after, line, pending := more
          documents := inner.documents.setIfInBounds d.index word }
      documents fuel

/-- Read a token without a look at keywords. -/
def rawToken (fuel : Nat) : Read Token :=
  match fuel with
  | 0 => stop "too deep"
  | fuel + 1 => do
    if let some t := (← get).back then
      modify fun s => { s with back := none }
      return t
    let c ← peek
    match c with
    | none => return .finish
    | some ' ' | some '\t' =>
      let _ ← takeRun fun c => c == ' ' || c == '\t'
      rawToken fuel
    | some '#' =>
      let _ ← takeRun (· != '\n')
      rawToken fuel
    | some '\n' =>
      advance 1
      return .newline
    | some c =>
      let twice (one two : String) : Read Token := do
        advance 1
        return .operator (if ← accept c then two else one)
      match c with
      | '&' => twice "&" "&&"
      | '|' => twice "|" "||"
      | ';' => twice ";" ";;"
      | '(' | ')' =>
        advance 1
        return .operator (String.singleton c)
      | _ =>
        let (word, quoted) ← pieces fuel .open false []
        let number : Option (Option Nat) :=
          if quoted then none
          else
            match word with
            | [] => some none
            | [.text [d] false] => if d.isDigit then some (some (d.toNat - 48)) else none
            | _ => none
        match number, ← peekPlain with
        | some number, some '>' => arrowOut number
        | some number, some '<' => arrowIn number
        | _, _ => return .word word quoted
where
  /-- The next byte, as it is. -/
  peekPlain : Read (Option Char) := do return (← get).rest.head?
  /-- A redirection of an output. -/
  arrowOut (number : Option Nat) : Read Token := do
    advance 1
    let n := number.getD 1
    if ← accept '>' then return .redirect n (.file .append)
    if ← accept '|' then return .redirect n (.file .write)
    if ← accept '&' then return .redirect n (.file .copy)
    return .redirect n (.file .write)
  /-- A redirection of an input. -/
  arrowIn (number : Option Nat) : Read Token := do
    advance 1
    let n := number.getD 0
    if ← accept '<' then return .redirect n (.document (← accept '-'))
    if ← accept '&' then return .redirect n (.file .copy)
    if ← accept '>' then return .redirect n (.file .both)
    return .redirect n (.file .read)

/-- Read a token.  Newlines in front of it are dropped if `newlines`, and a
word may be a keyword if `keys`. -/
def token (fuel : Nat) (newlines keys : Bool) : Read Token :=
  match fuel with
  | 0 => stop "too deep"
  | fuel + 1 => do
    match ← rawToken fuel with
    | .newline =>
      if newlines then
        documents fuel
        token fuel newlines keys
      else return .newline
    | .word w false =>
      match if keys then plainText? w else none with
      | some text => return if keywords.contains text then .keyword text else .word w false
      | none => return .word w false
    | t => return t

/-- Read a list of commands. -/
def list (fuel : Nat) (kind : ListKind) (done : Option Command) (fresh : Bool) : Read Listed :=
  match fuel with
  | 0 => stop "too deep"
  | fuel + 1 => do
    let inLine := kind == .line
    match ← token fuel (!inLine) true with
    | .newline =>
      documents fuel
      return (done, false)
    | .finish =>
      documents fuel
      pushBack .finish
      return (done, done.isNone)
    | t =>
      pushBack t
      if t.endsList && (kind == .any || (kind == .some && !fresh)) then return (done, false)
      let command ← chain fuel none
      let t ← token fuel false false
      let command := if t.isOperator "&" then .background command else command
      let done := some (andThen done command)
      match t with
      | .finish =>
        documents fuel
        pushBack t
        return (done, false)
      | .newline =>
        pushBack t
        list fuel kind done false
      | .operator ";" | .operator "&" => list fuel kind done false
      | t =>
        if inLine then unexpected t
        pushBack t
        return (done, false)

/-- Read commands joined by `&&` and `||`, after those in front. -/
def chain (fuel : Nat) (before : Option (Bool × Command)) : Read Command :=
  match fuel with
  | 0 => stop "too deep"
  | fuel + 1 => do
    let one ← pipeline fuel before.isSome
    let joined := match before with
      | none => one
      | some (true, first) => .both first one
      | some (false, first) => .either first one
    let t ← token fuel false false
    if t.isOperator "&&" then chain fuel (some (true, joined))
    else if t.isOperator "||" then chain fuel (some (false, joined))
    else
      pushBack t
      return joined

/-- Read commands joined by `|`. -/
def pipeline (fuel : Nat) (newlines : Bool) : Read Command :=
  match fuel with
  | 0 => stop "too deep"
  | fuel + 1 => do
    let t ← token fuel newlines true
    let negated := t.isKeyword "!"
    if !negated then pushBack t
    let first ← command fuel false
    let members ← members fuel [first]
    let body := match members with
      | [one] => one
      | many => .pipeline many
    return if negated then .negated body else body

/-- Read the further members of a pipeline; `done` are those in front, in
reverse. -/
def members (fuel : Nat) (done : List Command) : Read (List Command) :=
  match fuel with
  | 0 => stop "too deep"
  | fuel + 1 => do
    let t ← token fuel false false
    if t.isOperator "|" then
      let next ← command fuel true
      members fuel (next :: done)
    else
      pushBack t
      return done.reverse

/-- Read one command. -/
def command (fuel : Nat) (newlines : Bool) : Read Command :=
  match fuel with
  | 0 => stop "too deep"
  | fuel + 1 => do
    let t ← token fuel newlines true
    let line := (← get).line
    match t with
    | .keyword "if" =>
      let body ← branches fuel
      compound fuel line "\"fi\"" (·.isKeyword "fi") body
    | .keyword "while" | .keyword "until" =>
      let wanted : Wanted := if t.isKeyword "while" then .success else .failure
      let (test, _) ← list fuel .some .none true
      let t ← token fuel false false
      if !t.isKeyword "do" then expecting t "\"do\""
      let (body, _) ← list fuel .some .none true
      compound fuel line "\"done\"" (·.isKeyword "done") (.loop wanted test body)
    | .keyword "for" =>
      let t ← token fuel false false
      let name ← match t with
        | .word w false =>
          match plainText? w with
          | some name => if isName name then pure name else stop "Bad for loop variable"
          | none => stop "Bad for loop variable"
        | _ => stop "Bad for loop variable"
      let t ← token fuel true true
      let words ← if t.isKeyword "in" then do
          let words ← forWords fuel []
          pure (some words)
        else do
          if !t.isOperator ";" then pushBack t
          pure none
      let t ← token fuel true true
      if !t.isKeyword "do" then expecting t "\"do\""
      let (body, _) ← list fuel .some .none true
      compound fuel line "\"done\"" (·.isKeyword "done") (.each line name words body)
    | .keyword "case" =>
      match ← token fuel false false with
      | .word w _ =>
        let t ← token fuel true true
        if !t.isKeyword "in" then expecting t "\"in\""
        let cases ← cases fuel []
        redirections fuel line (.choice line w cases) []
      | t => expecting t "word"
    | .operator "(" =>
      let (body, _) ← list fuel .some .none true
      let t ← token fuel false false
      if !t.isOperator ")" then expecting t "\")\""
      redirections fuel line (.apart line body []) []
    | .keyword "\x7b" =>
      let (body, _) ← list fuel .some .none true
      let t ← token fuel false false
      if !t.isKeyword "\x7d" then expecting t "\"\x7d\""
      redirections fuel line (.redirected line body []) []
    | .word .. | .redirect .. =>
      pushBack t
      simple fuel line [] [] []
    | t => unexpected t

/-- Read the word that ends a command, and the redirections after it. -/
def compound (fuel : Nat) (line : Nat) (wanted : String) (isEnd : Token → Bool)
    (body : Command) : Read Command :=
  match fuel with
  | 0 => stop "too deep"
  | fuel + 1 => do
    let t ← token fuel false false
    if !isEnd t then expecting t wanted
    redirections fuel line body []

/-- Read the redirections after a command; `done` are those so far. -/
def redirections (fuel : Nat) (line : Nat) (body : Command) (done : List Redirection) :
    Read Command :=
  match fuel with
  | 0 => stop "too deep"
  | fuel + 1 => do
    match ← token fuel false done.isEmpty with
    | .redirect number arrow =>
      let r ← target fuel number arrow
      redirections fuel line body (done ++ [r])
    | t =>
      pushBack t
      return match body, done with
        | .apart line body _, done => .apart line body done
        -- redirections after braces replace those of a lone command that is run apart
        | .redirected _ (some (.apart line body before)) _, done =>
          .apart line body (if done.isEmpty then before else done)
        | .redirected line body _, done => .redirected line body done
        | body, [] => body
        | body, done => .redirected line (some body) done

/-- Read the branches after the word `if`. -/
def branches (fuel : Nat) : Read Command :=
  match fuel with
  | 0 => stop "too deep"
  | fuel + 1 => do
    let (test, _) ← list fuel .some .none true
    let t ← token fuel false false
    if !t.isKeyword "then" then expecting t "\"then\""
    let (yes, _) ← list fuel .some .none true
    let t ← token fuel false false
    if t.isKeyword "elif" then
      let no ← branches fuel
      return .branch test yes (some no)
    else if t.isKeyword "else" then
      let (no, _) ← list fuel .some .none true
      return .branch test yes no
    else
      pushBack t
      return .branch test yes none

/-- Read the words after the word `in`; `done` are those so far. -/
def forWords (fuel : Nat) (done : List Word) : Read (List Word) :=
  match fuel with
  | 0 => stop "too deep"
  | fuel + 1 => do
    match ← token fuel false false with
    | .word w _ => forWords fuel (done ++ [w])
    | .newline =>
      documents fuel
      return done
    | .operator ";" => return done
    | t => unexpected t

/-- Read the cases of a choice; `done` are those so far. -/
def cases (fuel : Nat) (done : List (List Word × Option Command)) :
    Read (List (List Word × Option Command)) :=
  match fuel with
  | 0 => stop "too deep"
  | fuel + 1 => do
    let t ← token fuel true true
    if t.isKeyword "esac" then return done
    let t ← if t.isOperator "(" then token fuel false false else pure t
    let patterns ← patterns fuel t []
    let (body, _) ← list fuel .any .none true
    let done := done ++ [(patterns, body)]
    let t ← token fuel true true
    if t.isKeyword "esac" then return done
    if !t.isOperator ";;" then expecting t "\";;\""
    cases fuel done

/-- Read the patterns of a case, the first of which is a token that was
read. -/
def patterns (fuel : Nat) (t : Token) (done : List Word) : Read (List Word) :=
  match fuel with
  | 0 => stop "too deep"
  | fuel + 1 => do
    let w : Word := match t with
      | .word w _ => w
      | .keyword text => [.text text.toList false]
      | _ => []
    let after ← token fuel false false
    if after.isOperator "|" then
      let next ← token fuel false false
      patterns fuel next (done ++ [w])
    else if after.isOperator ")" then return done ++ [w]
    else expecting after "\")\""

/-- Read the target of a redirection. -/
def target (fuel : Nat) (number : Nat) (arrow : Arrow) : Read Redirection :=
  match fuel with
  | 0 => stop "too deep"
  | fuel + 1 => do
    match arrow with
    | .file direction =>
      match ← token fuel false false with
      | .word w _ => return .file number direction w
      | t => unexpected t
    | .document stripped =>
      match ← token fuel false false with
      | .word w quoted =>
        let index := (← get).documents.size
        modify fun s => { s with
          documents := s.documents.push []
          pending := s.pending ++ [⟨index, markOf w, stripped, quoted⟩] }
        return .document number index
      | t => unexpected t
where
  /-- The mark that a word writes. -/
  markOf (w : Word) : Octets :=
    w.flatMap fun piece =>
      match piece with
      | .text chars _ => chars
      | .enclosed body =>
        body.flatMap fun piece => match piece with | .text chars _ => chars | _ => []
      | _ => []

/-- Read the parts of a simple command, which may turn out to define a
function. -/
def simple (fuel : Nat) (line : Nat) (assignments : List (String × Word)) (words : List Word)
    (redirections : List Redirection) : Read Command :=
  match fuel with
  | 0 => stop "too deep"
  | fuel + 1 => do
    match ← token fuel false false with
    | .word w _ =>
      match if words.isEmpty then assignment? w else none with
      | some a => simple fuel line (assignments ++ [a]) words redirections
      | none => simple fuel line assignments (words ++ [w]) redirections
    | .redirect number arrow =>
      let r ← target fuel number arrow
      simple fuel line assignments words (redirections ++ [r])
    | t =>
      match words, t.isOperator "(" && assignments.isEmpty && redirections.isEmpty with
      | [w], true =>
        let t ← token fuel false false
        if !t.isOperator ")" then expecting t "\")\""
        match plainText? w with
        | some name =>
          if isName name && !specialBuiltins.contains name then
            let body ← command fuel true
            return .define name (some body)
          else stop "Bad function name"
        | none => stop "Bad function name"
      | _, _ =>
        pushBack t
        return .simple line assignments words redirections

end

/-! ## §8. Complete commands. -/

/-- **Read the next complete command.**  The second answer is whether the
script ended in front of it. -/
def nextCommand : Read Listed := do
  let s ← get
  set { s with back := none, pending := [] }
  list (8 * s.rest.length + 64) .line .none true

end Offside.Tool.Script
