/-
  Offside.Config.Reader
  ─────────────────────
  Reading a config file.

  The language is TOML: statements that assign a value to a key, and headers
  that open a table or add one to an array of tables.  A table may be opened
  by a header once, and a value that was written inline is closed for good;
  the `Draft` keeps track of both.
-/
import Offside.Config.Scalar

namespace Offside.Config

open Text

/-! ## §1. Keys. -/

/-- The way to a value: the names of the tables it is in, and its own. -/
abbrev Key := List String

/-- Whether a character may stand in a name without marks. -/
def isBareKeyChar (c : Char) : Bool := c.isAlphanum || c == '_' || c == '-'

/-- The rest after spaces and tabs. -/
def skipGap (cs : List Char) : List Char := cs.dropWhile isGap

/-- One name of a key. -/
def keyPart (cs : List Char) : Read String :=
  match cs with
  | '\'' :: rest => (literalString rest).map fun p => (String.ofList p.1, p.2)
  | '"' :: rest => (basicString rest).map fun p => (String.ofList p.1, p.2)
  | _ =>
    let run := cs.takeWhile isBareKeyChar
    if run.isEmpty then .error .malformed
    else .ok (String.ofList run, cs.drop run.length)

/-- The names of a key with dots between them, after those in `done`. -/
def keyParts : Nat → Key → List Char → Except Error (Key × List Char)
  | 0, _, _ => .error .malformed
  | fuel + 1, done, cs => do
    let (name, rest) ← keyPart cs
    match skipGap rest with
    | '.' :: more => keyParts fuel (done ++ [name]) (skipGap more)
    | rest => return (done ++ [name], rest)

/-- A key, and the rest after the gap behind it. -/
def key (cs : List Char) : Read Key := keyParts (cs.length + 1) [] cs

/-! ## §2. Tables under construction. -/

/-- Replace the value of a key, or add it at the end. -/
def Table.put (t : Table) (key : String) (v : Value) : Table :=
  if t.any fun e => e.1 == key then t.map fun e => if e.1 == key then (key, v) else e
  else t ++ [(key, v)]

/-- Change the table that a key leads to, making the tables on the way that
are missing.  With `arrays`, an array of tables stands for its last table.
There is no result if something else is in the way. -/
def Table.change (arrays : Bool) (f : Table → Option Table) :
    Key → Table → Option Table
  | [], t => f t
  | name :: rest, t =>
    match Table.get? t name with
    | none => (Table.change arrays f rest []).map fun u => Table.put t name (.table u)
    | some (.table inner) =>
      (Table.change arrays f rest inner).map fun u => Table.put t name (.table u)
    | some (.array items) =>
      match arrays, items.getLast? with
      | true, some (.table inner) =>
        (Table.change arrays f rest inner).map fun u =>
          Table.put t name (.array (items.dropLast ++ [.table u]))
      | _, _ => none
    | some _ => none

/-- Add a value under a name that has none yet. -/
def Table.add (name : String) (v : Value) (t : Table) : Option Table :=
  if (Table.get? t name).isSome then none else some (t ++ [(name, v)])

/-- Add an empty table to the array under a name. -/
def Table.append (name : String) (t : Table) : Option Table :=
  match Table.get? t name with
  | none => some (t ++ [(name, .array [.table []])])
  | some (.array items) => some (Table.put t name (.array (items ++ [.table []])))
  | some _ => none

/-- Whether a value holds other values. -/
def Value.isContainer : Value → Bool
  | .array _ | .table _ => true
  | _ => false

/-- A config file that has been read in part. -/
structure Draft where
  root : Table := []
  /-- The table that statements add to. -/
  header : Key := []
  /-- The tables that a header may not open any more. -/
  opened : List Key := []
  /-- The tables made by dotted keys since the last header, which the next
  header may not open. -/
  pending : List Key := []
  /-- The values that were written inline. -/
  closed : List Key := []

/-- Whether a key is inside a value that was written inline. -/
def isClosed (closed : List Key) (key : Key) : Bool :=
  closed.any fun k => k.isPrefixOf key

/-! ## §3. Values. -/

/-- The rest after a comment, if one starts here. -/
def skipComment (cs : List Char) : Except Error (List Char) :=
  match cs with
  | '#' :: rest =>
    let body := rest.takeWhile (· != '\n')
    if body.any isControl then .error .malformed else .ok (rest.drop body.length)
  | _ => .ok cs

/-- The rest after layout and comments inside an array. -/
def skipLayout : Nat → List Char → Except Error (List Char)
  | 0, cs => .ok cs
  | fuel + 1, cs =>
    match cs.dropWhile isLayout with
    | '#' :: rest => do skipLayout fuel (← skipComment ('#' :: rest))
    | rest => .ok rest

/-- An inline table under construction: its entries, and those of its keys
whose values hold other values. -/
structure InlineDraft where
  entries : Table := []
  closed : List Key := []

/-- Add a value to an inline table. -/
def InlineDraft.add (d : InlineDraft) (key : Key) (v : Value) : Option InlineDraft :=
  if isClosed d.closed key then none
  else
    match key.getLast? with
    | none => none
    | some name =>
      (Table.change false (Table.add name v) key.dropLast d.entries).map fun entries =>
        { entries, closed := if v.isContainer then d.closed ++ [key] else d.closed }

/-- How much room there is for values inside values.  Entering an array takes
two places of it, and entering an inline table three. -/
def nestingRoom : Nat := 986

/-- The room that is left after some places of it are taken. -/
def enter (places room : Nat) : Except Error Nat :=
  if room < places then .error .tooDeep else .ok (room - places)

mutual

/-- A value of any type, with the room that is left for values inside it. -/
def value : Nat → Nat → List Char → Except Error (Value × List Char)
  | 0, _, _ => .error .malformed
  | fuel + 1, room, cs =>
    match cs with
    | '"' :: '"' :: '"' :: rest =>
      (blockString '"' rest).map fun p => (.text (String.ofList p.1), p.2)
    | '"' :: rest => (basicString rest).map fun p => (.text (String.ofList p.1), p.2)
    | '\'' :: '\'' :: '\'' :: rest =>
      (blockString '\'' rest).map fun p => (.text (String.ofList p.1), p.2)
    | '\'' :: rest => (literalString rest).map fun p => (.text (String.ofList p.1), p.2)
    | 't' :: 'r' :: 'u' :: 'e' :: rest => .ok (.boolean true, rest)
    | 'f' :: 'a' :: 'l' :: 's' :: 'e' :: rest => .ok (.boolean false, rest)
    | '[' :: rest => do arrayItems fuel (← enter 2 room) [] rest
    | '\x7b' :: rest => do
      let room ← enter 3 room
      match skipGap rest with
      | '\x7d' :: more => return (.table [], more)
      | start => tableEntries fuel room {} start
    | _ => ((temporal? cs).orElse fun _ => number? cs).getD (.error .malformed)

/-- The items of an array up to its end, after those in `done`, which holds
the latest first. -/
def arrayItems : Nat → Nat → List Value → List Char → Except Error (Value × List Char)
  | 0, _, _, _ => .error .malformed
  | fuel + 1, room, done, cs => do
    match ← skipLayout (cs.length + 1) cs with
    | ']' :: rest => return (.array done.reverse, rest)
    | start =>
      let (v, rest) ← value fuel room start
      match ← skipLayout (rest.length + 1) rest with
      | ']' :: more => return (.array (v :: done).reverse, more)
      | ',' :: more => arrayItems fuel room (v :: done) more
      | _ => .error .malformed

/-- The entries of an inline table up to its end, after those already
read. -/
def tableEntries : Nat → Nat → InlineDraft → List Char → Except Error (Value × List Char)
  | 0, _, _, _ => .error .malformed
  | fuel + 1, room, done, cs => do
    let (k, rest) ← key cs
    match rest with
    | '=' :: start =>
      let (v, rest) ← value fuel room (skipGap start)
      match done.add k v with
      | none => .error .malformed
      | some done =>
        match skipGap rest with
        | '\x7d' :: more => return (.table done.entries, more)
        | ',' :: more => tableEntries fuel room done (skipGap more)
        | _ => .error .malformed
    | _ => .error .malformed

end

/-! ## §4. Statements. -/

/-- The keys of the tables that a dotted key goes through, seen from the
root. -/
def throughKeys (header key : Key) : List Key :=
  (List.range (key.length - 1)).map fun i => header ++ key.take (i + 1)

/-- Assign a value to a key of the current table. -/
def Draft.assign (d : Draft) (key : Key) (v : Value) : Option Draft :=
  let through := throughKeys d.header key
  let folder := d.header ++ key.dropLast
  if through.any (d.opened.contains ·) || isClosed d.closed folder then none
  else
    match key.getLast? with
    | none => none
    | some name =>
      (Table.change true (Table.add name v) folder d.root).map fun root =>
        { d with
          root
          pending := d.pending ++ through
          closed := if v.isContainer then d.closed ++ [d.header ++ key] else d.closed }

/-- Close the tables made by dotted keys, as the next header does. -/
def Draft.settle (d : Draft) : Draft :=
  { d with opened := d.opened ++ d.pending, pending := [] }

/-- Open a table by its header. -/
def Draft.openTable (d : Draft) (key : Key) : Option Draft :=
  if d.opened.contains key || isClosed d.closed key then none
  else
    (Table.change true some key d.root).map fun root =>
      { d with root, header := key, opened := d.opened ++ [key] }

/-- Add a table to an array of tables by its header.  What was said about the
tables inside the one before no longer counts. -/
def Draft.addTable (d : Draft) (key : Key) : Option Draft :=
  if isClosed d.closed key then none
  else
    match key.getLast? with
    | none => none
    | some name =>
      (Table.change true (Table.append name) key.dropLast d.root).map fun root =>
        { d with
          root
          header := key
          opened := (d.opened.filter fun k => !key.isPrefixOf k) ++ [key]
          closed := d.closed.filter fun k => !key.isPrefixOf k }

/-- Turn a refusal into an error. -/
def orMalformed (d : Option Draft) : Except Error Draft :=
  match d with
  | some d => .ok d
  | none => .error .malformed

/-- One statement, from its first character that is not a gap. -/
def statement (d : Draft) (cs : List Char) : Except Error (Draft × List Char) := do
  match cs with
  | '[' :: '[' :: rest =>
    let (k, rest) ← key (skipGap rest)
    let d ← orMalformed (d.settle.addTable k)
    match rest with
    | ']' :: ']' :: more => return (d, more)
    | _ => .error .malformed
  | '[' :: rest =>
    let (k, rest) ← key (skipGap rest)
    let d ← orMalformed (d.settle.openTable k)
    match rest with
    | ']' :: more => return (d, more)
    | _ => .error .malformed
  | '#' :: _ => return (d, cs)
  | _ =>
    let (k, rest) ← key cs
    match rest with
    | '=' :: start =>
      let (v, rest) ← value (2 * start.length + 2) nestingRoom (skipGap start)
      return (← orMalformed (d.assign k v), rest)
    | _ => .error .malformed

/-- All statements, line by line. -/
def statements : Nat → Draft → List Char → Except Error Draft
  | 0, d, _ => .ok d
  | fuel + 1, d, cs =>
    match skipGap cs with
    | [] => .ok d
    | '\n' :: rest => statements fuel d rest
    | start => do
      let (d, rest) ← statement d start
      match ← skipComment (skipGap rest) with
      | [] => return d
      | '\n' :: more => statements fuel d more
      | _ => .error .malformed

/-- A carriage return before a newline read together with it. -/
def joinReturns : List Char → List Char
  | '\r' :: '\n' :: rest => '\n' :: joinReturns rest
  | c :: rest => c :: joinReturns rest
  | [] => []

/-- **The config reader**: the table that a text stands for. -/
def parse (text : String) : Except Error Table :=
  let cs := joinReturns text.toList
  (statements (cs.length + 1) {} cs).map Draft.root

end Offside.Config
