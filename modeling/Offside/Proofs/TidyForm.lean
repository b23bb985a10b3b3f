/-
  Offside.Proofs.TidyForm
  ───────────────────────
  **TIDY TEXT STAYS AS IT IS.**

  `IsTidy` is what tidying aims at, said of the lines of a text: none ends in
  blanks, the first and the last are not empty, and no two empty ones follow
  each other.  Two facts make it the normal form of `tidyLines`:

    · `isTidy_tidyLines`     what comes out is tidy, whatever went in;
    · `tidyLines_of_isTidy`  what is tidy goes through unchanged.

  With the rule that tidying works line by line, a second tidying finds nothing
  to do.
-/
import Offside.Proofs.Tidy

namespace Offside.Markup

open Text

/-! ## §1. Tidy lines. -/

/-- Lines as tidying leaves them. -/
structure IsTidy (ls : List (List Char)) : Prop where
  trimmed : ∀ l ∈ ls, trimRight l = l
  first : ls.head? ≠ some []
  last : ls.getLast? ≠ some []
  /-- Of two lines in a row one is not empty. -/
  apart : ls.IsChain fun a b => a ≠ [] ∨ b ≠ []

section Squash

variable {ls : List (List Char)}

/-- An empty line goes only if another one follows, so the first line stays
empty or not. -/
theorem head?_squash (ls : List (List Char)) : (squash ls).head? = ls.head? := by
  induction ls with
  | nil => rfl
  | cons line rest ih =>
    rw [squash]
    split
    next h =>
      obtain ⟨hline, hnext⟩ : line = [] ∧ rest.head? = some [] := by simpa using h
      rw [ih, hnext, hline]
      rfl
    next => rfl

/-- No line follows the last one, so it is kept. -/
theorem getLast?_squash (ls : List (List Char)) : (squash ls).getLast? = ls.getLast? := by
  induction ls with
  | nil => rfl
  | cons line rest ih =>
    rw [squash]
    split
    next h =>
      obtain ⟨-, hnext⟩ : line = [] ∧ rest.head? = some [] := by simpa using h
      have hne : rest ≠ [] := by
        intro hnil
        rw [hnil] at hnext
        exact absurd hnext (by simp)
      rw [ih, List.getLast?_cons_of_ne_nil hne]
    next => rw [List.getLast?_cons, List.getLast?_cons, ih]

theorem isChain_squash (ls : List (List Char)) :
    (squash ls).IsChain fun a b => a ≠ [] ∨ b ≠ [] := by
  induction ls with
  | nil => exact List.IsChain.nil
  | cons line rest ih =>
    rw [squash]
    split
    next => exact ih
    next h =>
      rw [List.isChain_cons, head?_squash]
      refine ⟨?_, ih⟩
      intro next hnext
      by_contra hboth
      rw [not_or, not_not, not_not] at hboth
      apply h
      rw [Option.mem_def.mp hnext, hboth.1, hboth.2]
      rfl

/-- Where no two empty lines are in a row there is nothing to squash. -/
theorem squash_of_isChain (h : ls.IsChain fun a b => a ≠ [] ∨ b ≠ []) : squash ls = ls := by
  induction ls with
  | nil => rfl
  | cons line rest ih =>
    rw [List.isChain_cons] at h
    rw [squash, if_neg, ih h.2]
    intro hboth
    obtain ⟨hline, hnext⟩ : line = [] ∧ rest.head? = some [] := by simpa using hboth
    exact (h.1 [] hnext).elim (fun hne => hne hline) (fun hne => hne rfl)

end Squash

/-! ## §2. The ends. -/

section Ends

variable {α : Type} {p : α → Bool} {l : List α}

theorem rdropWhile_of_getLast? (h : ∀ x ∈ l.getLast?, p x = false) : l.rdropWhile p = l := by
  have hstop : Stops p l.reverse := by
    intro x hx
    rw [List.head?_reverse] at hx
    exact h x hx
  unfold List.rdropWhile
  rw [dropWhile_of_stops hstop, List.reverse_reverse]

/-- Nothing that is dropped is left at the front. -/
theorem head?_dropEnds (ls : List (List Char)) : (dropEnds ls).head? ≠ some [] := by
  intro h
  -- the ends may be dropped in either order, and what is dropped last decides
  unfold dropEnds at h
  rw [rdropWhile_dropWhile] at h
  have hstop := stops_dropWhile (p := List.isEmpty) (ls.rdropWhile List.isEmpty)
  exact absurd (hstop [] h) (by simp)

/-- Nor is it at the back. -/
theorem getLast?_dropEnds (ls : List (List Char)) : (dropEnds ls).getLast? ≠ some [] := by
  intro h
  unfold dropEnds List.rdropWhile at h
  rw [List.getLast?_reverse] at h
  exact absurd (stops_dropWhile (p := List.isEmpty) _ [] h) (by simp)

end Ends

/-! ## §3. The normal form. -/

theorem trimRight_trimRight (cs : List Char) : trimRight (trimRight cs) = trimRight cs :=
  trimRight_of_stops (stops_reverse_trimRight cs)

/-- **What comes out of tidying is tidy.** -/
theorem isTidy_tidyLines (ls : List (List Char)) : IsTidy (tidyLines ls) where
  trimmed := by
    intro l hl
    obtain ⟨m, -, rfl⟩ := List.mem_map.mp ((squash_dropEnds (ls.map trimRight)).1.subset hl)
    exact trimRight_trimRight m
  first := by
    unfold tidyLines
    rw [head?_squash]
    exact head?_dropEnds _
  last := by
    unfold tidyLines
    rw [getLast?_squash]
    exact getLast?_dropEnds _
  apart := isChain_squash _

/-- **What is tidy stays as it is.** -/
theorem tidyLines_of_isTidy {ls : List (List Char)} (h : IsTidy ls) : tidyLines ls = ls := by
  have hmap : ls.map trimRight = ls := by
    conv_rhs => rw [← List.map_id ls]
    exact List.map_congr_left h.trimmed
  have hfirst : Stops List.isEmpty ls := by
    intro l hl
    rw [List.isEmpty_eq_false_iff]
    rintro rfl
    exact h.first hl
  have hlast : ∀ l ∈ ls.getLast?, l.isEmpty = false := by
    intro l hl
    rw [List.isEmpty_eq_false_iff]
    rintro rfl
    exact h.last hl
  unfold tidyLines dropEnds
  rw [hmap, dropWhile_of_stops hfirst, rdropWhile_of_getLast? hlast, squash_of_isChain h.apart]

/-- The lines of a tidy text are found again in it, unless there are none. -/
theorem lines_unlines_tidyLines {cs : List Char} (h : tidyLines (lines cs) ≠ []) :
    lines (unlines (tidyLines (lines cs))) = tidyLines (lines cs) := by
  refine lines_unlines h ?_
  intro l hl hmem
  obtain ⟨m, hm, rfl⟩ :=
    List.mem_map.mp ((squash_dropEnds ((lines cs).map trimRight)).1.subset hl)
  obtain ⟨b, -, hsplit⟩ := exists_blank_trimRight m
  refine newline_not_mem_of_mem_lines hm ?_
  rw [hsplit]
  exact List.mem_append_left _ hmem

/-- Tidying twice is tidying once. -/
theorem tidy_tidy (cs : List Char) : tidy (tidy cs) = tidy cs := by
  rw [tidy_eq_unlines (tidy cs), tidy_eq_unlines cs]
  by_cases hnone : tidyLines (lines cs) = []
  · rw [hnone]
    rfl
  · rw [lines_unlines_tidyLines hnone, tidyLines_of_isTidy (isTidy_tidyLines _)]

/-- **A tidy text has tidy lines**, unless nothing is left of it. -/
theorem isTidy_lines_tidy (cs : List Char) : tidy cs = [] ∨ IsTidy (lines (tidy cs)) := by
  rw [tidy_eq_unlines]
  by_cases hnone : tidyLines (lines cs) = []
  · left
    rw [hnone]
    rfl
  · right
    rw [lines_unlines_tidyLines hnone]
    exact isTidy_tidyLines _

/-- **Lines that are not blank come through**, in order and without the blanks at
their ends. -/
theorem filter_lines_tidy (cs : List Char) :
    (lines (tidy cs)).filter (fun l => !isBlankLine l)
      = ((lines cs).map trimRight).filter (!·.isEmpty) := by
  have hkept : (tidyLines (lines cs)).filter (!·.isEmpty)
      = ((lines cs).map trimRight).filter (!·.isEmpty) := (squash_dropEnds _).2
  rw [tidy_eq_unlines, ← hkept]
  by_cases hnone : tidyLines (lines cs) = []
  · rw [hnone]
    rfl
  · rw [lines_unlines_tidyLines hnone]
    refine List.filter_congr ?_
    intro l hl
    rw [← isEmpty_trimRight, (isTidy_tidyLines _).trimmed l hl]

/-! ## §4. Texts of blanks. -/

theorem mem_unlines_of_mem {ls : List (List Char)} {l : List Char} {c : Char} (hl : l ∈ ls)
    (hc : c ∈ l) : c ∈ unlines ls := by
  obtain ⟨a, b, rfl⟩ := List.append_of_mem hl
  have hline : c ∈ unlines (l :: b) := by
    rw [← List.append_nil l, ← append_unlines_cons]
    exact List.mem_append_left _ hc
  by_cases ha : a = []
  · rw [ha]
    exact hline
  · rw [unlines_append ha (by simp)]
    exact List.mem_append_right _ (List.mem_cons_of_mem _ hline)

/-- A text is blank when all its lines are. -/
theorem forall_isBlankLine_iff {cs : List Char} :
    (∀ l ∈ lines cs, isBlankLine l = true) ↔ ∀ c ∈ cs, isBlank c = true := by
  constructor
  · intro h c hc
    rw [← unlines_lines cs] at hc
    rcases mem_unlines hc with rfl | ⟨l, hl, hcl⟩
    · exact isBlank_newline
    · exact isBlankLine_iff.mp (h l hl) c hcl
  · intro h l hl
    rw [isBlankLine_iff]
    intro c hc
    refine h c ?_
    rw [← unlines_lines cs]
    exact mem_unlines_of_mem hl hc

/-- No line is left exactly of lines that are all blank. -/
theorem tidyLines_eq_nil_iff {ls : List (List Char)} :
    tidyLines ls = [] ↔ ∀ l ∈ ls, isBlankLine l = true := by
  constructor
  · intro hnone l hl
    -- a line that is not blank would be among those that are left
    have hkept := (squash_dropEnds (ls.map trimRight)).2
    rw [show squash (dropEnds (ls.map trimRight)) = [] from hnone, List.filter_nil, eq_comm,
      List.filter_eq_nil_iff] at hkept
    have hempty := hkept (trimRight l) (List.mem_map_of_mem hl)
    rw [isEmpty_trimRight] at hempty
    simpa using hempty
  · intro hall
    have hempty : (ls.map trimRight).dropWhile List.isEmpty = [] := by
      rw [← map_trimRight_dropWhile, List.dropWhile_eq_nil_iff.mpr hall, List.map_nil]
    unfold tidyLines dropEnds
    rw [hempty]
    rfl

/-- Tidying leaves nothing exactly of a text of blanks. -/
theorem tidy_eq_nil_iff {cs : List Char} : tidy cs = [] ↔ ∀ c ∈ cs, isBlank c = true := by
  rw [← forall_isBlankLine_iff, ← tidyLines_eq_nil_iff, tidy_eq_unlines]
  constructor
  · intro h
    cases hls : tidyLines (lines cs) with
    | nil => rfl
    | cons l rest =>
      -- the first line would be empty, and it is not
      have hfirst := (isTidy_tidyLines (lines cs)).first
      rw [hls] at h hfirst
      rw [← List.append_nil l, ← append_unlines_cons, List.append_eq_nil_iff] at h
      rw [h.1] at hfirst
      exact absurd rfl hfirst
  · intro h
    rw [h]
    rfl

/-! ## §5. Tidying, for every text. -/

/-- **Tidying is a matter of lines.**  Blanks at the end of each line go, then the empty
lines at both ends, and of several empty lines in a row one is kept; so nothing is left
exactly of a text of blanks, and tidying again changes nothing. -/
theorem tidyString_line_by_line (s : String) :
    (tidyString s).toList = unlines (squash (dropEnds ((lines s.toList).map trimRight)))
      ∧ (tidyString s = "" ↔ ∀ c ∈ s.toList, isBlank c = true)
      ∧ tidyString (tidyString s) = tidyString s := by
  refine ⟨?_, ?_, ?_⟩
  · unfold tidyString
    rw [String.toList_ofList, tidy_eq_unlines]
    rfl
  · rw [← tidy_eq_nil_iff, ← String.toList_eq_nil_iff, tidyString, String.toList_ofList]
  · unfold tidyString
    rw [String.toList_ofList, tidy_tidy]

/-- Blanks of several kinds, runs of blank lines, and a line that is only indented. -/
def ragged : String := " \n\u2003\n  <p>\t \r\n\n \u00a0\n\t\n   x\u000b\n\n</p>\n \n\n"

theorem tidyString_line_by_line_ragged :
    tidyString ragged = "  <p>\n\n   x\n\n</p>"
      ∧ squash (dropEnds ((lines ragged.toList).map trimRight))
          = ["  <p>".toList, [], "   x".toList, [], "</p>".toList]
      ∧ tidyString (tidyString ragged) = tidyString ragged := by
  obtain ⟨hlines, -, hagain⟩ := tidyString_line_by_line ragged
  have hrule : squash (dropEnds ((lines ragged.toList).map trimRight))
      = ["  <p>".toList, [], "   x".toList, [], "</p>".toList] := by decide +kernel
  refine ⟨?_, hrule, hagain⟩
  rw [← String.toList_inj, hlines, hrule]
  decide +kernel

end Offside.Markup
