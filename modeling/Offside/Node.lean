/-
  Offside.Node
  ────────────
  The tree that a page source stands for.

  A page is a forest of nodes: document types, texts, and tags.  A tag is
  either a void tag, which has no inside, or an element with children; that
  a void tag has no children is part of the type.
-/

namespace Offside

/-! ## §1. Tags. -/

/-- The value of an attribute. -/
inductive AttributeValue where
  /-- The attribute is present without a value. -/
  | on
  /-- The attribute is switched off and left out of the markup. -/
  | off
  /-- The attribute has a text for its value. -/
  | text (value : String)
  deriving Repr, DecidableEq

/-- A named attribute of a tag. -/
structure Attribute where
  name : String
  value : AttributeValue
  deriving Repr, DecidableEq

/-- What a tag says about itself: its name, its classes and id, and its
attributes in order. -/
structure Tag where
  name : String
  classes : List String := []
  id : Option String := none
  attributes : List Attribute := []
  deriving Repr, DecidableEq

/-- The names of the tags that have no inside. -/
def voidNames : List String :=
  ["br", "hr", "img", "input", "meta", "link", "source"]

/-- Whether a tag is written without an inside. -/
def Tag.isVoid (tag : Tag) : Bool := voidNames.contains tag.name

/-! ## §2. Nodes. -/

/-- A node of a page. -/
inductive Node where
  /-- A document type. -/
  | doctype (name : String)
  /-- Text, possibly of several lines. -/
  | text (content : String)
  /-- A tag without an inside. -/
  | void (tag : Tag)
  /-- A tag and the nodes inside it. -/
  | element (tag : Tag) (children : List Node)
  deriving Repr, BEq, Inhabited

mutual

/-- Whether two nodes are the same. -/
def Node.decEq : (a b : Node) → Decidable (a = b)
  | .doctype m, .doctype n =>
    if h : m = n then .isTrue (congrArg Node.doctype h)
    else .isFalse fun e => h (Node.doctype.inj e)
  | .text m, .text n =>
    if h : m = n then .isTrue (congrArg Node.text h)
    else .isFalse fun e => h (Node.text.inj e)
  | .void s, .void t =>
    if h : s = t then .isTrue (congrArg Node.void h)
    else .isFalse fun e => h (Node.void.inj e)
  | .element s ms, .element t ns =>
    if h : s = t then
      match Node.decEqAll ms ns with
      | .isTrue h' => .isTrue (h ▸ h' ▸ rfl)
      | .isFalse h' => .isFalse fun e => h' (Node.element.inj e).2
    else .isFalse fun e => h (Node.element.inj e).1
  | .doctype _, .text _ | .doctype _, .void _ | .doctype _, .element _ _
  | .text _, .doctype _ | .text _, .void _ | .text _, .element _ _
  | .void _, .doctype _ | .void _, .text _ | .void _, .element _ _
  | .element _ _, .doctype _ | .element _ _, .text _ | .element _ _, .void _ => .isFalse nofun

/-- Whether two lists of nodes are the same. -/
def Node.decEqAll : (as bs : List Node) → Decidable (as = bs)
  | [], [] => .isTrue rfl
  | [], _ :: _ | _ :: _, [] => .isFalse nofun
  | a :: as, b :: bs =>
    match Node.decEq a b, Node.decEqAll as bs with
    | .isTrue h, .isTrue h' => .isTrue (h ▸ h' ▸ rfl)
    | .isFalse h, _ => .isFalse fun e => h (List.cons.inj e).1
    | _, .isFalse h' => .isFalse fun e => h' (List.cons.inj e).2

end

instance : DecidableEq Node := Node.decEq

/-- A node that was asked to be without an inside and to have children. -/
structure VoidWithChildren where
  name : String
  deriving Repr, DecidableEq, Inhabited

/-- What is wrong with such a node. -/
def VoidWithChildren.message (e : VoidWithChildren) : String :=
  s!"self-closing tag '{e.name}' cannot have children"

/-- A tag node from its parts; a void tag with children is refused. -/
def Node.ofTag (tag : Tag) (void : Bool) (children : List Node) :
    Except VoidWithChildren Node :=
  match void, children with
  | false, _ => .ok (.element tag children)
  | true, [] => .ok (.void tag)
  | true, _ :: _ => .error ⟨tag.name⟩

end Offside
