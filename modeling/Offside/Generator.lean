/-
  Offside.Generator
  ─────────────────
  From a forest to the final text of a page.

  Minified markup is final.  Other markup goes through the formatter if the
  options ask for it; when the formatter refuses, and when there is none, the
  markup is tidied instead.  A generator that was disposed of does nothing
  any more, and markup that is indented too far is not made at all.
-/
import Offside.Formatter
import Offside.Markup.Render
import Offside.Markup.Tidy
import Offside.Markup.Width

namespace Offside

/-- Why a generator gives no text. -/
inductive GenerateError where
  /-- The generator was disposed of. -/
  | disposed
  /-- The markup is indented too far. -/
  | indentation (reason : Text.TooWide)
  /-- A word of the formatter command has a null character in it. -/
  | nullInWord
  /-- The formatter wrote something that is not text. -/
  | undecodable
  /-- The time limit of the formatter is not a number of seconds. -/
  | badTimeout (reason : TimeLimitError)
  deriving Repr, DecidableEq

/-- The wording of such a reason. -/
def GenerateError.message : GenerateError → String
  | .disposed => "generator has been disposed"
  | .indentation reason => reason.message
  | .nullInWord => FileError.nullInPath.message
  | .undecodable => "formatter output is not text"
  | .badTimeout reason => reason.message

/-- A source of page texts, with its own options and formatter. -/
structure Generator where
  options : Options
  formatter : Formatter
  disposed : Bool := false
  [room : Text.Room]

/-- The markup of a forest as text. -/
def markup (o : Options) (forest : List Node) : String :=
  String.ofList (Markup.render o forest)

/-- The final text when no formatter is used. -/
def plainText (o : Options) (forest : List Node) : String :=
  if o.minify then markup o forest else Markup.tidyString (markup o forest)

/-- A text or why there is none, and what there is to tell about making
it. -/
structure Generated where
  log : List LogLine := []
  result : Except GenerateError String
  /-- The files, if a formatter has changed them. -/
  files : Option Files := none

/-- What becomes of markup that a formatter has seen. -/
def settled (html : String) (formatted : Formatted) : Generated :=
  let log := formatted.log
  let files := formatted.files
  match formatted.result with
  | .ok text => { log, result := .ok text, files }
  | .error (.error reason) =>
    let fallback : LogLine :=
      ⟨.debug, "external formatter unavailable, using fallback: " ++ reason.message⟩
    { log := log ++ [fallback], result := .ok (Markup.tidyString html), files }
  | .error .nullInWord => { log, result := .error .nullInWord, files }
  | .error .undecodable => { log, result := .error .undecodable, files }
  | .error (.badTimeout reason) => { log, result := .error (.badTimeout reason), files }

/-- **The final text of a forest.**  The options of the generator hold unless
others are given. -/
def Generator.generate (g : Generator) (files : Files) (forest : List Node)
    (options : Option Options) : Generated :=
  let o := options.getD g.options
  if g.disposed then { result := .error .disposed }
  else
    match Markup.overflow? g.room o forest with
    | some reason => { result := .error (.indentation reason) }
    | none =>
      if o.minify || !o.useFormatter then { result := .ok (plainText o forest) }
      else settled (markup o forest) (g.formatter.format files (markup o forest))

/-- The generator, disposed of. -/
def Generator.dispose (g : Generator) : Generator := { g with disposed := true }

end Offside
