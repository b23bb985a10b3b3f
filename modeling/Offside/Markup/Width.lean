/-
  Offside.Markup.Width
  ────────────────────
  How far markup is indented.

  Every tag and every text on lines of its own is indented by its depth.  The
  spaces in front of a line must fit into memory; since they grow with the
  depth, only the deepest line that is indented matters.
-/
import Offside.Markup.Render
import Offside.Text.Spaces

namespace Offside.Markup

/-! ## §1. Depth. -/

mutual

/-- The depth of the deepest line that is indented, of a node at a depth. -/
def depthOf (depth : Nat) : Node → Nat
  | .doctype _ => 0
  | .text _ => depth
  | .void _ => depth
  | .element tag children =>
    match inlineText? tag children with
    | some _ => depth
    | none => max depth (depthOfAll (depth + 1) children)

/-- The depth of the deepest line that is indented, of nodes at a depth. -/
def depthOfAll (depth : Nat) : List Node → Nat
  | [] => 0
  | n :: ns => max (depthOf depth n) (depthOfAll depth ns)

end

/-! ## §2. Width. -/

/-- **Why a forest cannot be indented**, if it cannot.  The first level below
the top is indented first, so its width decides the reason. -/
def overflow? (room : Text.Room) (o : Options) (forest : List Node) : Option Text.TooWide :=
  let depth := depthOfAll 0 forest
  if o.minify || o.indentStyle == .tabs || depth == 0 then none
  else (Text.tooWide? room o.indentWidth).or (Text.tooWide? room (depth * o.indentWidth))

end Offside.Markup
