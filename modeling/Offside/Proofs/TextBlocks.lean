/-
  Offside.Proofs.TextBlocks
  ─────────────────────────
  **NEWLINES IN A BLOCK OF TEXT.**

  A text of several lines is written line by line, and whether a newline is put
  behind a line is decided there: it is if any line follows, blank or not.  Lines
  can be put one below the other in two ways:

      separated  — a newline between any two of them, and none at the end
      rough      — a newline behind each of them

  Blank lines in front of a text or within it leave no trace.  Its last line
  decides: if it is not blank the lines are separated, and if it is blank they are
  all ended (`text_separated_iff`).  As a newline follows every node, the latter
  is an empty line of the markup (`node_of_block`).
-/
import Offside.Proofs.PageLines

namespace Offside.Markup

open Text

/-! ## §1. Two ways to write lines. -/

/-- Lines one below the other, with a newline between any two and none at the end. -/
def separated (o : Options) (ls : List PageLine) : List Char := unlines (ls.map (·.rough o))

section Ways

variable {ls : List PageLine}

/-- The two ways differ by one newline. -/
theorem rough_eq_separated (o : Options) (hne : ls ≠ []) : rough o ls = separated o ls ++ ['\n'] := by
  induction ls with
  | nil => exact absurd rfl hne
  | cons l ls ih =>
    unfold separated
    rw [rough_cons, List.map_cons]
    by_cases hlast : ls = []
    · rw [hlast, rough_nil, List.map_nil, unlines_singleton]
    · have hmore : ls.map (·.rough o) ≠ [] := by simpa using hlast
      rw [ih hlast, unlines_cons hmore, List.append_assoc, List.cons_append]
      rfl

theorem separated_ne_rough (o : Options) (hne : ls ≠ []) : separated o ls ≠ rough o ls := by
  intro heq
  have hlength := congrArg List.length heq
  rw [rough_eq_separated o hne, List.length_append, List.length_singleton] at hlength
  omega

end Ways

/-! ## §2. Texts of several lines. -/

section Texts

variable {o : Options} {content : String}

theorem inkLines_ne_nil (depth : Nat) (parent : String) {pieces : List (List Char)}
    (h : ∃ line ∈ pieces, isBlankLine line = false) : inkLines depth parent pieces ≠ [] := by
  obtain ⟨line, hline, hinked⟩ := h
  have hkept : trim line ∈ (pieces.map trim).filter fun l => !l.isEmpty := by
    rw [List.mem_filter, isEmpty_trim, hinked]
    exact ⟨List.mem_map_of_mem hline, rfl⟩
  exact List.ne_nil_of_mem (List.mem_map_of_mem hkept)

/-- A text and the newline behind it: its lines, and what is left over. -/
theorem text_append_newline (ho : o.minify = false) (depth : Nat) (parent : String)
    (hbreak : '\n' ∈ content.toList) :
    text o depth parent content ++ ['\n']
      = rough o (inkLines depth parent (lines content.toList))
        ++ rough o (leftover (lines content.toList)) := by
  rw [text_of_mem ho hbreak, block_eq_rough (lines_ne_nil _), rough_append]

/-- The lines are separated if the last line of the text is not blank. -/
theorem text_eq_separated (ho : o.minify = false) (depth : Nat) (parent : String)
    (hbreak : '\n' ∈ content.toList)
    (hinked : ∃ line ∈ lines content.toList, isBlankLine line = false)
    (hlast : endsBlank (lines content.toList) = false) :
    text o depth parent content = separated o (inkLines depth parent (lines content.toList)) := by
  have hwritten := text_append_newline ho depth parent hbreak
  have hnone : leftover (lines content.toList) = [] := if_neg (by simp [hlast])
  -- nothing is left over, so the newline behind the text is the one that ends its last line
  rw [hnone, rough_nil, List.append_nil,
    rough_eq_separated o (inkLines_ne_nil depth parent hinked)] at hwritten
  exact List.append_cancel_right hwritten

/-- All lines are ended if the last line of the text is blank. -/
theorem text_eq_ended (ho : o.minify = false) (depth : Nat) (parent : String)
    (hbreak : '\n' ∈ content.toList) (hlast : endsBlank (lines content.toList) = true) :
    text o depth parent content = rough o (inkLines depth parent (lines content.toList)) := by
  have hwritten := text_append_newline ho depth parent hbreak
  have hempty : rough o (leftover (lines content.toList)) = ['\n'] := by
    simp [leftover, hlast, rough_cons, PageLine.rough]
  -- the newline behind the text is that of the empty line, so the last line has its own
  rw [hempty] at hwritten
  exact List.append_cancel_right hwritten

end Texts

/-- **A BLOCK OF TEXT IS SEPARATED BY NEWLINES UNLESS IT ENDS IN A BLANK LINE.**  What is
written for a text of several lines, not all of them blank, is its lines that are not
blank, trimmed, escaped unless the tag is raw, each behind the margin of its depth.
They have newlines between them and none at the end exactly if the last line of the
text is not blank, and exactly if it is blank there is one newline more, behind the last
of them. -/
theorem text_separated_iff (o : Options) (depth : Nat) (parent content : String)
    (hpretty : o.minify = false) (hbreak : '\n' ∈ content.toList)
    (hinked : ∃ line ∈ lines content.toList, isBlankLine line = false) :
    (text o depth parent content = separated o (textLines depth parent content.toList)
        ↔ endsBlank (lines content.toList) = false)
      ∧ (text o depth parent content = rough o (textLines depth parent content.toList)
        ↔ endsBlank (lines content.toList) = true) := by
  rw [textLines_of_inked hinked]
  have hapart := separated_ne_rough o (inkLines_ne_nil depth parent hinked)
  -- the two ways never give the same text, so the last line settles both equivalences
  cases hlast : endsBlank (lines content.toList) with
  | false =>
    rw [text_eq_separated hpretty depth parent hbreak hinked hlast]
    exact ⟨iff_of_true rfl rfl, iff_of_false hapart (by decide)⟩
  | true =>
    rw [text_eq_ended hpretty depth parent hbreak hlast]
    exact ⟨iff_of_false hapart.symm (by decide), iff_of_true rfl rfl⟩

/-- A text that starts with a blank line and has one within. -/
def looseText : String := "\n  a < b \n \n\tc & d"

theorem text_separated_iff_loose :
    '\n' ∈ looseText.toList ∧ (∃ line ∈ lines looseText.toList, isBlankLine line = false)
      ∧ endsBlank (lines looseText.toList) = false
      ∧ text { indentStyle := .tabs } 2 "p" looseText
        = separated { indentStyle := .tabs } (textLines 2 "p" looseText.toList)
      ∧ text { indentStyle := .tabs } 2 "p" looseText
        = "\t\ta &lt; b\n\t\tc &amp; d".toList := by
  have hbreak : '\n' ∈ looseText.toList := by decide
  have hinked : ∃ line ∈ lines looseText.toList, isBlankLine line = false :=
    ⟨"\tc & d".toList, by decide, by decide⟩
  have hlast : endsBlank (lines looseText.toList) = false := by decide +kernel
  exact ⟨hbreak, hinked, hlast,
    (text_separated_iff { indentStyle := .tabs } 2 "p" looseText rfl hbreak hinked).1.mpr hlast,
    by decide +kernel⟩

/-- **A blank last line leaves a newline behind**, and the page shows an empty line
there. -/
theorem blank_last_line_ends_block :
    '\n' ∈ "a\n".toList ∧ (∃ line ∈ lines "a\n".toList, isBlankLine line = false)
      ∧ text {} 1 "div" "a\n" = "  a\n".toList
      ∧ separated {} (textLines 1 "div" "a\n".toList) = "  a".toList
      ∧ text {} 1 "div" "a\n" ≠ separated {} (textLines 1 "div" "a\n".toList)
      ∧ plainText {} [.element ⟨"div", [], none, []⟩ [.text "a\n"]] = "<div>\n  a\n\n</div>" := by
  refine ⟨by decide, ⟨"a".toList, by decide, by decide⟩, ?_⟩
  decide +kernel

/-! ## §3. Elements around a block. -/

/-- **A block in its element.**  Between the line of the opening tag and that of the
closing tag stand the lines of the text, and an empty line if the text ends in a blank
one. -/
theorem node_of_block {o : Options} {depth : Nat} {parent content : String} {tag : Tag}
    (ho : o.minify = false) (hbreak : '\n' ∈ content.toList)
    (hblock : onOneLine? tag [.text content] = none) :
    node o depth parent (.element tag [.text content]) ++ ['\n']
      = rough o (⟨depth, opening tag⟩ :: inkLines (depth + 1) tag.name (lines content.toList)
          ++ leftover (lines content.toList) ++ [⟨depth, closing tag⟩]) := by
  have hinside : nodes o (depth + 1) tag.name [.text content]
      = rough o (inkLines (depth + 1) tag.name (lines content.toList)
          ++ leftover (lines content.toList)) := by
    rw [nodes, nodes, node, newline_eq ho, List.append_nil, text_append_newline ho _ _ hbreak,
      rough_append]
  rw [node_element ho, hblock, hinside, List.cons_append, List.cons_append, rough_cons,
    rough_append _ _ [_], rough_cons, rough_nil]
  simp [PageLine.rough]

end Offside.Markup
