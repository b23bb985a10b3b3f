/-
  Offside.Outline
  ───────────────
  A forest as an outline for inspection.

  One line per node and attribute, indented by two spaces a level, under the
  heading `Document`.  Texts are quoted, so that two documents with the same
  outline are the same document.
-/
import Offside.Node
import Offside.Text.Quoted

namespace Offside.Outline

open Text

/-- A line of the outline at a depth. -/
def entry (depth : Nat) (cs : List Char) : List Char :=
  List.replicate (2 * depth) ' ' ++ cs ++ ['\n']

/-- The name of a tag with its classes and its id. -/
def selector (tag : Tag) : List Char :=
  let id :=
    match tag.id with
    | some id => if id.isEmpty then [] else '#' :: id.toList
    | none => []
  tag.name.toList ++ (tag.classes.flatMap fun c => '.' :: c.toList) ++ id

/-- An attribute and its value. -/
def attributeText (a : Attribute) : List Char :=
  let value :=
    match a.value with
    | .on => []
    | .off => "=False".toList
    | .text v => '=' :: quoted v.toList
  "Attr ".toList ++ a.name.toList ++ value

/-- The lines of a tag and its attributes. -/
def tag (depth : Nat) (tag : Tag) (mark : List Char) : List Char :=
  entry depth ("Tag ".toList ++ selector tag ++ mark)
    ++ tag.attributes.flatMap fun a => entry (depth + 1) (attributeText a)

/-- A word with a quoted text in parentheses. -/
def call (word : String) (cs : List Char) : List Char :=
  word.toList ++ '(' :: quoted cs ++ [')']

mutual

/-- The outline of a node at a depth. -/
def node (depth : Nat) : Node → List Char
  | .doctype name => entry depth (call "Doctype" name.toList)
  | .text content => entry depth (call "Text" content.toList)
  | .void t => tag depth t " (self-closing)".toList
  | .element t children => tag depth t [] ++ nodes (depth + 1) children

/-- The outline of nodes one below the other. -/
def nodes (depth : Nat) : List Node → List Char
  | [] => []
  | n :: ns => node depth n ++ nodes depth ns

end

/-- **The outline of a forest.** -/
def render (forest : List Node) : String :=
  String.ofList ("Document\n".toList ++ nodes 1 forest)

end Offside.Outline
