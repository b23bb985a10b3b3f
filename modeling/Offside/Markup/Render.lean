/-
  Offside.Markup.Render
  ─────────────────────
  Writing a forest of nodes as markup.

  Pretty markup puts every node on lines of its own, indented by its depth;
  minified markup has no layout.  A tag whose only child is a short text
  without newlines is written on one line in both.  Text is escaped except
  inside scripts and style sheets.
-/
import Offside.Node
import Offside.Options
import Offside.Text.Blank

namespace Offside.Markup

open Text

/-! ## §1. Escaping. -/

/-- The escaped form of one character. -/
def escapeChar (c : Char) : List Char :=
  if c == '&' then "&amp;".toList
  else if c == '<' then "&lt;".toList
  else if c == '>' then "&gt;".toList
  else if c == '"' then "&quot;".toList
  else [c]

/-- The escaped form of a text, for content and for attribute values. -/
def escape (cs : List Char) : List Char := cs.flatMap escapeChar

/-- Whether text inside a tag of this name is written without escaping. -/
def isRaw (name : String) : Bool :=
  let lower := name.toList.map Char.toLower
  lower == "script".toList || lower == "style".toList

/-- A text as it is written inside a tag of this name. -/
def emit (parent : String) (cs : List Char) : List Char :=
  if isRaw parent then cs else escape cs

/-! ## §2. Tags. -/

/-- A text as the value of an attribute. -/
def assign (name value : List Char) : List Char :=
  name ++ '=' :: '"' :: value ++ ['"']

/-- The written form of an attribute, unless it is switched off. -/
def attribute? (a : Attribute) : Option (List Char) :=
  match a.value with
  | .on => some a.name.toList
  | .off => none
  | .text v => some (assign a.name.toList (escape v.toList))

/-- What a tag says in its brackets beside its name: classes, id, and
attributes. -/
def entries (tag : Tag) : List (List Char) :=
  let classes :=
    if tag.classes.isEmpty then []
    else [assign "class".toList ([' '].intercalate (tag.classes.map String.toList))]
  let id :=
    match tag.id with
    | some id => if id.isEmpty then [] else [assign "id".toList id.toList]
    | none => []
  classes ++ id ++ tag.attributes.filterMap attribute?

/-- The name of a tag and its entries, each after a space. -/
def inside (tag : Tag) : List Char :=
  tag.name.toList ++ (entries tag).flatMap fun e => ' ' :: e

/-- An opening tag. -/
def opening (tag : Tag) : List Char := '<' :: inside tag ++ ['>']

/-- A closing tag. -/
def closing (tag : Tag) : List Char := '<' :: '/' :: tag.name.toList ++ ['>']

/-- A tag without an inside. -/
def voidTag (tag : Tag) : List Char := '<' :: inside tag ++ " />".toList

/-- A document type. -/
def doctype (name : String) : List Char :=
  "<!DOCTYPE ".toList ++ name.toList ++ ['>']

/-! ## §3. Layout. -/

/-- What separates nodes. -/
def newline (o : Options) : List Char := if o.minify then [] else ['\n']

/-- What stands in front of a node at a depth. -/
def indentation (o : Options) (depth : Nat) : List Char :=
  if o.minify then []
  else
    match o.indentStyle with
    | .tabs => List.replicate depth '\t'
    | .spaces => List.replicate (depth * o.indentWidth) ' '

/-- The lines of a block of text that are not blank, each trimmed and on a
line of its own.  A newline stands after every one of them but the last line
of the block. -/
def block (parent : String) (pad : List Char) : List (List Char) → List Char
  | [] => []
  | line :: rest =>
    let text := trim line
    let written := if text.isEmpty then [] else pad ++ emit parent text
    let separator := if text.isEmpty || rest.isEmpty then [] else ['\n']
    written ++ separator ++ block parent pad rest

/-- A text inside a tag of the name `parent` at a depth. -/
def text (o : Options) (depth : Nat) (parent : String) (content : String) :
    List Char :=
  let pieces := lines content.toList
  if o.minify then
    let words := (pieces.map trim).filter fun l => !l.isEmpty
    let joint := if isRaw parent then '\n' else ' '
    emit parent ([joint].intercalate words)
  else
    let pad := indentation o depth
    match pieces with
    | [piece] => pad ++ emit parent (trim piece)
    | pieces => block parent pad pieces

/-- How long a text may be to stand on the line of its tag. -/
def inlineLimit : Nat := 80

/-- The text that is written on the line of its tag: the only child, if it
is short and of one line. -/
def inlineText? (tag : Tag) (children : List Node) : Option (List Char) :=
  match children with
  | [.text content] =>
    let written :=
      if isRaw tag.name then trim content.toList else escape content.toList
    if written.length < inlineLimit && !written.contains '\n' then some written
    else none
  | _ => none

/-! ## §4. Nodes. -/

mutual

/-- A node inside a tag of the name `parent` at a depth. -/
def node (o : Options) (depth : Nat) (parent : String) : Node → List Char
  | .doctype name => doctype name
  | .text content => text o depth parent content
  | .void tag => indentation o depth ++ voidTag tag
  | .element tag children =>
    let pad := indentation o depth
    if children.isEmpty then pad ++ opening tag ++ closing tag
    else
      match inlineText? tag children with
      | some written => pad ++ opening tag ++ written ++ closing tag
      | none =>
        pad ++ opening tag ++ newline o ++ nodes o (depth + 1) tag.name children
          ++ pad ++ closing tag

/-- Nodes one after the other, each with what separates it from the next. -/
def nodes (o : Options) (depth : Nat) (parent : String) : List Node → List Char
  | [] => []
  | n :: ns => node o depth parent n ++ newline o ++ nodes o depth parent ns

end

/-- **The markup of a forest.** -/
def render (o : Options) (forest : List Node) : List Char := nodes o 0 "" forest

end Offside.Markup
