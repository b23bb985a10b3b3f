/-
  Offside.Options
  ───────────────
  How markup is laid out.
-/
import Offside.Text.Quoted

namespace Offside

open Text

/-! ## §1. Indentation styles. -/

/-- What a level of indentation is made of. -/
inductive IndentStyle where
  | spaces
  | tabs
  deriving Repr, DecidableEq

/-- The name under which a style is chosen. -/
def IndentStyle.name : IndentStyle → String
  | .spaces => "spaces"
  | .tabs => "tabs"

/-! ## §2. Options. -/

/-- The layout of markup; nothing else affects the text that is made. -/
structure Options where
  /-- How many spaces a level of indentation has. -/
  indentWidth : Nat := 2
  indentStyle : IndentStyle := .spaces
  /-- Leave out all layout. -/
  minify : Bool := false
  /-- Pass the markup through a formatter. -/
  useFormatter : Bool := true
  deriving Repr, DecidableEq

/-- Why options are refused. -/
inductive OptionsError where
  | negativeWidth (width : Int)
  | unknownStyle (name : String)
  /-- An empty list is given in place of a style. -/
  | noStyle
  deriving Repr, DecidableEq

/-- The wording of a refusal. -/
def OptionsError.message : OptionsError → String
  | .negativeWidth width => s!"indent_width must not be negative, got {width}"
  | .unknownStyle name => quotedString name ++ " is not a valid IndentStyle"
  | .noStyle => "[] is not a valid IndentStyle"

/-- The style with a given name. -/
def IndentStyle.ofName (name : String) : Except OptionsError IndentStyle :=
  if name == "spaces" then .ok .spaces
  else if name == "tabs" then .ok .tabs
  else .error (.unknownStyle name)

/-- A width that is not negative. -/
def Options.width (width : Int) : Except OptionsError Nat :=
  if width < 0 then .error (.negativeWidth width) else .ok width.toNat

/-- Options from plain values; the width is looked at before the style. -/
def Options.make (width : Int) (style : String) (minify useFormatter : Bool) :
    Except OptionsError Options := do
  let indentWidth ← Options.width width
  let indentStyle ← IndentStyle.ofName style
  return { indentWidth, indentStyle, minify, useFormatter }

end Offside
