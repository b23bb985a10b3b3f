/-
  Offside.Document
  ────────────────
  The offside rule: from the lines of a source to a forest of nodes.

  Each line is first read by itself into a `Role`.  A line whose role is a
  `leaf` makes a node and takes no other line.  Every other role takes the
  longest run of following lines that are indented deeper than the line
  itself, as a block of text or as children.  The lines left over belong to
  whoever the line belongs to, so nesting needs no stack of indentations.
-/
import Offside.Head.Reader

namespace Offside.Document

open Text

/-! ## §1. What one line says. -/

/-- What a line makes, and what becomes of the deeper lines below it. -/
inductive Role where
  /-- A node of its own; deeper lines are its siblings. -/
  | leaf (node : Node)
  /-- A bare `|`: deeper lines are its text. -/
  | textBlock
  /-- A tag with a bare `|` for content: deeper lines, if there are any, are
  its one text. -/
  | verbatim (tag : Tag)
  /-- A tag with the text on its line, if any; deeper lines are its
  children. -/
  | parent (tag : Tag) (lead : List Node)
  deriving Repr

/-- The role of a piped line: text on the line, or a block below it. -/
def pipeRole (text : List Char) : Role :=
  let rest := trim (text.drop 1)
  if rest.isEmpty then .textBlock
  else .leaf (.text (String.ofList (unquote rest)))

/-- The child that the text on a tag line makes; an empty text makes none. -/
def leading (content : String) : List Node :=
  if content.isEmpty then [] else [.text content]

/-- The role of a tag line with a given head. -/
def headRole (line : Line) (head : Head) : Except Fault Role :=
  if head.tag.isVoid then
    match head.tail with
    | .none => .ok (.leaf (.void head.tag))
    | _ => .error ⟨.contentInVoid head.tag.name, line.position head.contentOffset⟩
  else
    match head.tail with
    | .block => .ok (.verbatim head.tag)
    | .none => .ok (.parent head.tag [])
    | .inline content => .ok (.parent head.tag (leading content))

/-- The role of a tag line at a nesting depth. -/
def tagRole (depth : Nat) (line : Line) : Except Fault Role :=
  if maxDepth < depth then .error ⟨.nestingTooDeep, line.position 0⟩
  else
    match Head.read line.text.toList with
    | .error fault => .error ⟨fault.cause, line.position fault.offset⟩
    | .ok head => headRole line head

/-- The role of a line at a nesting depth; the top level has depth one. -/
def role (depth : Nat) (line : Line) : Except Fault Role :=
  match line.kind with
  | .doctype =>
    if 1 < depth then .error ⟨.doctypeNested, line.position 0⟩
    else
      let name := trim (line.text.toList.drop doctypeMark.length)
      .ok (.leaf (.doctype (String.ofList name)))
  | .pipe => .ok (pipeRole line.text.toList)
  | .tag => tagRole depth line
  | .text => .ok (.leaf (.text line.text))

/-! ## §2. Nesting. -/

/-- The lines below `line` that are indented deeper, up to the first that is
not. -/
def below (line : Line) (rest : List Line) : List Line :=
  rest.takeWhile fun l => line.indent < l.indent

/-- The lines from the first on that is not indented deeper than `line`. -/
def beyond (line : Line) (rest : List Line) : List Line :=
  rest.dropWhile fun l => line.indent < l.indent

/-- The text of a block: the texts of its lines, one below the other. -/
def blockText (block : List Line) : String :=
  String.ofList (unlines (block.map fun l => l.text.toList))

theorem length_below_le (line : Line) (rest : List Line) :
    (below line rest).length ≤ rest.length :=
  (List.takeWhile_sublist _).length_le

theorem length_beyond_le (line : Line) (rest : List Line) :
    (beyond line rest).length ≤ rest.length :=
  (List.dropWhile_sublist _).length_le

/-- The nodes that the lines of one level make, after those in `done`, which
holds the latest first. -/
def forest (depth : Nat) (done : List Node) (lines : List Line) :
    Except Fault (List Node) :=
  match lines with
  | [] => .ok done.reverse
  | line :: rest =>
    match role depth line with
    | .error fault => .error fault
    | .ok (.leaf node) => forest depth (node :: done) rest
    | .ok .textBlock =>
      forest depth (.text (blockText (below line rest)) :: done) (beyond line rest)
    | .ok (.verbatim tag) =>
      let block := below line rest
      let children := if block.isEmpty then [] else [.text (blockText block)]
      forest depth (.element tag children :: done) (beyond line rest)
    | .ok (.parent tag lead) =>
      match forest (depth + 1) lead (below line rest) with
      | .error fault => .error fault
      | .ok children =>
        forest depth (.element tag children :: done) (beyond line rest)
termination_by lines.length
decreasing_by
  all_goals
    have h1 := length_below_le line rest
    have h2 := length_beyond_le line rest
    simp only [List.length_cons]
    omega

/-! ## §3. Sources. -/

/-- Whether no page may hold the character. -/
def isForbidden (c : Char) : Bool :=
  c.toNat == 0 || c.toNat == 0xFFFE || c.toNat == 0xFFFF

/-- Whether a source may be read at all. -/
def check (source : String) : Except SourceError Unit :=
  if source.isEmpty then .error .empty
  else if maxSourceBytes < source.utf8ByteSize then .error .tooLarge
  else if source.toList.any isForbidden then .error .forbidden
  else .ok ()

/-- **The page reader**: the forest that a source stands for, or the first
thing that is wrong with it. -/
def parse (source : String) : Except SourceError (List Node) :=
  match check source with
  | .error e => .error e
  | .ok () =>
    match forest 1 [] (Line.scan source) with
    | .error fault => .error (.malformed fault source)
    | .ok nodes => .ok nodes

/-- The forest of something that may not be text at all, which is refused
like an empty text. -/
def parse? (source : Option String) : Except SourceError (List Node) :=
  match source with
  | none => .error .empty
  | some source => parse source

end Offside.Document
