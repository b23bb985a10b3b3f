/-
  Offside.Diagnostics
  ───────────────────
  What an editor is told about an open document.

  A document that reads well, or is empty, has no diagnostics; any other has
  exactly one.  Places count from zero here.
-/
import Offside.Document

namespace Offside

/-- A place in a document, counted from zero. -/
structure Place where
  line : Int
  character : Int
  deriving Repr, DecidableEq

/-- An error in a document, from one place up to another. -/
structure Diagnostic where
  start : Place
  stop : Place
  message : String
  deriving Repr, DecidableEq

/-- A diagnostic for the one character at a place. -/
def Diagnostic.at (line character : Int) (message : String) : Diagnostic :=
  ⟨⟨line, character⟩, ⟨line, character + 1⟩, message⟩

/-- The diagnostic of a source error: at the fault, or at the start of the
document if the error is about all of it. -/
def SourceError.diagnostic : SourceError → Diagnostic
  | .malformed fault _ =>
    Diagnostic.at (fault.position.line - 1) (fault.position.column - 1)
      fault.cause.message
  | e => Diagnostic.at 0 0 e.message

/-- **The diagnostics of a document.** -/
def diagnostics (text : String) : List Diagnostic :=
  if text.isEmpty then []
  else
    match Document.parse text with
    | .ok _ => []
    | .error e => [e.diagnostic]

end Offside
