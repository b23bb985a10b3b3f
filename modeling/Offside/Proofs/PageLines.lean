/-
  Offside.Proofs.PageLines
  ────────────────────────
  **THE LINES OF A PAGE.**

  Pretty markup is made in one piece, node after node, with the newlines put in
  by whoever comes next, and is tidied as a whole.  This file says which lines
  come out, tag by tag and without a text that is written piece by piece:

      pageLines  — a line is a text at a depth; a tag is one line, or an
                   opening line, the lines of its children one deeper, and a
                   closing line; a text that is blank leaves a gap

  `nodes_eq_rough` says that rendering writes these lines one below the other; a
  text of several lines is the one node that may leave an empty line below its own
  (`block_eq_rough`), but no text that was read does.  Tidying then finds no blanks
  at their ends, so all it does is to empty the gaps and to leave out those that are
  not needed.
-/
import Offside.Proofs.SafeMarkup
import Offside.Proofs.TidyForm

namespace Offside.Markup

open Text Document

/-! ## §1. Lines at a depth. -/

/-- A line of a page: a text at a depth.  A line without text is a gap. -/
structure PageLine where
  depth : Nat
  text : List Char
  deriving Repr, DecidableEq

/-- Whether nothing is on the line. -/
def PageLine.isGap (l : PageLine) : Bool := l.text.isEmpty

/-- What stands in front of a line at a depth. -/
def margin (o : Options) (depth : Nat) : List Char :=
  match o.indentStyle with
  | .tabs => List.replicate depth '\t'
  | .spaces => List.replicate (depth * o.indentWidth) ' '

/-- A line as it is set out: nothing for a gap, and else its text behind the
margin of its depth. -/
def PageLine.setOut (o : Options) (l : PageLine) : List Char :=
  if l.isGap then [] else margin o l.depth ++ l.text

/-- The lines of a text inside a tag of the name `parent`: those that are not
blank, trimmed, or a gap if there are none. -/
def textLines (depth : Nat) (parent : String) (content : List Char) : List PageLine :=
  if content.all isBlank then [⟨depth, []⟩]
  else
    (((lines content).map trim).filter fun l => !l.isEmpty).map fun l => ⟨depth, emit parent l⟩

/-- The lines among these that are not blank, trimmed and set at a depth. -/
def inkLines (depth : Nat) (parent : String) (pieces : List (List Char)) : List PageLine :=
  ((pieces.map trim).filter fun l => !l.isEmpty).map fun l => ⟨depth, emit parent l⟩

/-- What stands between the tags of an element that is set out on one line: it
has no children, or a text that is short and of one line. -/
def onOneLine? (tag : Tag) : List Node → Option (List Char)
  | [] => some []
  | [.text content] =>
    let said := if isRaw tag.name then trim content.toList else escape content.toList
    if said.length < 80 ∧ '\n' ∉ said then some said else none
  | _ => none

mutual

/-- The lines of a node inside a tag of the name `parent` at a depth. -/
def pageLinesOf (depth : Nat) (parent : String) : Node → List PageLine
  | .doctype name => [⟨0, doctype name⟩]
  | .text content => textLines depth parent content.toList
  | .void tag => [⟨depth, voidTag tag⟩]
  | .element tag children =>
    match onOneLine? tag children with
    | some said => [⟨depth, opening tag ++ said ++ closing tag⟩]
    | none =>
      ⟨depth, opening tag⟩ :: pageLinesOfAll (depth + 1) tag.name children
        ++ [⟨depth, closing tag⟩]

/-- The lines of nodes, one below the other. -/
def pageLinesOfAll (depth : Nat) (parent : String) : List Node → List PageLine
  | [] => []
  | n :: ns => pageLinesOf depth parent n ++ pageLinesOfAll depth parent ns

end

/-- **The lines of the page of a forest.** -/
def pageLines (forest : List Node) : List PageLine := pageLinesOfAll 0 "" forest

/-! ## §2. What is on a line. -/

/-- A gap, or a line that neither starts nor ends in blanks. -/
def PageLine.Sound (l : PageLine) : Prop := l.text = [] ∨ isTrimmedLine l.text = true

section Sound

variable {cs : List Char} {tag : Tag}

/-- What stops a run at its front stops it whatever follows. -/
theorem stops_append_of_ne_nil {p : Char → Bool} {a : List Char} (hne : a ≠ []) (ha : Stops p a)
    (b : List Char) : Stops p (a ++ b) := by
  intro c hc
  rw [List.head?_append_of_ne_nil _ hne] at hc
  exact ha c hc

/-- Brackets around a text without newlines make a trimmed line. -/
theorem isTrimmedLine_brackets (h : '\n' ∉ cs) : isTrimmedLine ('<' :: (cs ++ ['>'])) = true := by
  refine isTrimmedLine_of_stops (by simp) (stops_cons.mpr (by decide)) ?_ ?_
  · rw [List.reverse_cons, List.reverse_append, List.reverse_singleton]
    exact stops_cons.mpr (by decide)
  · simp [h]

/-- Blanks at the ends of a text are neither made nor lost by escaping. -/
theorem isTrimmedLine_escape (h : isTrimmedLine cs = true) : isTrimmedLine (escape cs) = true := by
  obtain ⟨hne, htrim, hnewline⟩ := isTrimmedLine_iff.mp h
  have hchar : ∀ c, escapeChar c ≠ [] := fun c => writeItem_ne_nil (.char c)
  refine isTrimmedLine_of_stops ?_ ?_ ?_ (newline_not_mem_escape hnewline)
  · obtain ⟨c, rest, rfl⟩ := List.exists_cons_of_ne_nil hne
    intro hnil
    rw [escape, List.flatMap_cons, List.append_eq_nil_iff] at hnil
    exact hchar c hnil.1
  · have hfirst := stops_trim cs
    rw [htrim] at hfirst
    obtain ⟨c, rest, rfl⟩ := List.exists_cons_of_ne_nil hne
    rw [stops_cons] at hfirst
    rw [escape, List.flatMap_cons]
    refine stops_append_of_ne_nil (hchar c) ?_ _
    intro d hd
    exact isBlank_of_mem_escapeChar hfirst (List.mem_of_mem_head? hd)
  · have hlast := stops_reverse_trim cs
    rw [htrim] at hlast
    obtain ⟨rest, c, rfl⟩ := (List.eq_nil_or_concat' cs).resolve_left hne
    rw [List.reverse_concat, stops_cons] at hlast
    rw [escape, List.flatMap_append, List.flatMap_singleton, List.reverse_append]
    refine stops_append_of_ne_nil (List.reverse_ne_nil_iff.mpr (hchar c)) ?_ _
    intro d hd
    exact isBlank_of_mem_escapeChar hlast (List.mem_reverse.mp (List.mem_of_mem_head? hd))

/-- A trimmed line stays one when it is escaped. -/
theorem isTrimmedLine_emit (parent : String) (h : isTrimmedLine cs = true) :
    isTrimmedLine (emit parent cs) = true := by
  unfold emit
  split
  · exact h
  · exact isTrimmedLine_escape h

/-- The lines of a text are sound, whatever the text is. -/
theorem sound_textLines {depth : Nat} {parent : String} {content : List Char} {l : PageLine}
    (h : l ∈ textLines depth parent content) : l.Sound := by
  unfold textLines at h
  split at h
  next =>
    left
    rw [List.mem_singleton.mp h]
  next =>
    right
    obtain ⟨piece, hpiece, rfl⟩ := List.mem_map.mp h
    obtain ⟨hmem, hne⟩ := List.mem_filter.mp hpiece
    obtain ⟨line, hline, rfl⟩ := List.mem_map.mp hmem
    refine isTrimmedLine_emit parent (isTrimmedLine_iff.mpr ⟨by simpa using hne, trim_trim line, ?_⟩)
    intro hnewline
    exact newline_not_mem_of_mem_lines hline (trim_subset line hnewline)

/-- The inside of the brackets of a tag stays on one line. -/
theorem newline_not_mem_opening (h : tagConforms isReadValue tag = true) :
    '\n' ∉ body (.opening tag.name (shown tag)) :=
  breaks_not_mem_body (.inr (.inr rfl)) ⟨(tagConforms_iff.mp h).1, properEntry_shown h⟩

/-- A void tag stands on one line. -/
theorem newline_not_mem_void (h : tagConforms isReadValue tag = true) :
    '\n' ∉ body (.void tag.name (shown tag)) :=
  breaks_not_mem_body (.inr (.inr rfl)) ⟨(tagConforms_iff.mp h).1, properEntry_shown h⟩

/-- So does a closing tag. -/
theorem newline_not_mem_closing (h : tagConforms isReadValue tag = true) :
    '\n' ∉ body (.closing tag.name) :=
  breaks_not_mem_body (m := .closing tag.name) (.inr (.inr rfl)) (tagConforms_iff.mp h).1

/-- A short text on the line of its tag has no newline. -/
theorem newline_not_mem_onOneLine {children : List Node} {said : List Char}
    (h : onOneLine? tag children = some said) : '\n' ∉ said := by
  unfold onOneLine? at h
  split at h
  next =>
    injection h with h
    simp [← h]
  next content =>
    simp only [Option.ite_none_right_eq_some, Option.some.injEq] at h
    rw [← h.2]
    exact h.1.2
  next => exact absurd h (by simp)

/-- An element on one line starts with the bracket of its opening tag and ends with
that of its closing tag. -/
theorem isTrimmedLine_oneLine {said : List Char} (htag : tagConforms isReadValue tag = true)
    (hsaid : '\n' ∉ said) : isTrimmedLine (opening tag ++ said ++ closing tag) = true := by
  have hsplit : opening tag ++ said ++ closing tag
      = '<' :: ((body (.opening tag.name (shown tag)) ++ '>' :: (said
          ++ '<' :: body (.closing tag.name))) ++ ['>']) := by
    rw [opening_eq htag, closing_eq]
    simp
  rw [hsplit]
  apply isTrimmedLine_brackets
  simp [newline_not_mem_opening htag, newline_not_mem_closing htag, hsaid]

end Sound

mutual

/-- **The lines of a node are sound**, if the node conforms. -/
theorem sound_pageLinesOf (depth level : Nat) (parent : String) (n : Node)
    (h : conforms isReadValue level n = true) : ∀ l ∈ pageLinesOf depth parent n, l.Sound := by
  intro l hl
  cases n with
  | doctype name =>
    rw [conforms, Bool.and_eq_true] at h
    rw [pageLinesOf, List.mem_singleton] at hl
    have hname : '\n' ∉ "!DOCTYPE ".toList ++ name.toList := by
      rw [List.mem_append, not_or]
      exact ⟨by decide, (isTrimmedLine_iff.mp h.2).2.2⟩
    right
    rw [hl]
    exact isTrimmedLine_brackets hname
  | text content =>
    rw [pageLinesOf] at hl
    exact sound_textLines hl
  | void tag =>
    simp only [conforms, Bool.and_eq_true] at h
    rw [pageLinesOf, List.mem_singleton] at hl
    right
    rw [hl]
    show isTrimmedLine (voidTag tag) = true
    rw [voidTag_eq h.1.2]
    exact isTrimmedLine_brackets (newline_not_mem_void h.1.2)
  | element tag children =>
    simp only [conforms, Bool.and_eq_true] at h
    obtain ⟨⟨⟨-, htag⟩, -⟩, hchildren⟩ := h
    rw [pageLinesOf] at hl
    split at hl
    next said hsaid =>
      right
      rw [List.mem_singleton.mp hl]
      exact isTrimmedLine_oneLine htag (newline_not_mem_onOneLine hsaid)
    next =>
      -- the opening line, the lines of the children, the closing line
      rw [List.cons_append, List.mem_cons, List.mem_append, List.mem_singleton] at hl
      rcases hl with rfl | hl | rfl
      · right
        show isTrimmedLine (opening tag) = true
        rw [opening_eq htag]
        exact isTrimmedLine_brackets (newline_not_mem_opening htag)
      · exact sound_pageLinesOfAll (depth + 1) (level + 1) tag.name children hchildren l hl
      · right
        show isTrimmedLine (closing tag) = true
        rw [closing_eq]
        exact isTrimmedLine_brackets (newline_not_mem_closing htag)

/-- The lines of a forest are sound. -/
theorem sound_pageLinesOfAll (depth level : Nat) (parent : String) (ns : List Node)
    (h : allConform isReadValue level ns = true) :
    ∀ l ∈ pageLinesOfAll depth parent ns, l.Sound := by
  intro l hl
  cases ns with
  | nil =>
    rw [pageLinesOfAll] at hl
    exact absurd hl List.not_mem_nil
  | cons n ns =>
    rw [allConform, Bool.and_eq_true] at h
    rw [pageLinesOfAll, List.mem_append] at hl
    rcases hl with hl | hl
    · exact sound_pageLinesOf depth level parent n h.1 l hl
    · exact sound_pageLinesOfAll depth level parent ns h.2 l hl

end

/-! ## §3. Rendering writes the lines. -/

/-- A line before it is tidied: a gap is indented like any other line. -/
def PageLine.rough (o : Options) (l : PageLine) : List Char := margin o l.depth ++ l.text

/-- Lines before they are tidied, each with its newline. -/
def rough (o : Options) (ls : List PageLine) : List Char :=
  ls.flatMap fun l => l.rough o ++ ['\n']

@[simp] theorem rough_nil (o : Options) : rough o [] = [] := rfl

/-- The first line stands in front of the others. -/
theorem rough_cons (o : Options) (l : PageLine) (ls : List PageLine) :
    rough o (l :: ls) = l.rough o ++ '\n' :: rough o ls := by
  unfold rough
  rw [List.flatMap_cons, List.append_assoc]
  rfl

/-- Lines in a row are written in a row. -/
theorem rough_append (o : Options) (a b : List PageLine) :
    rough o (a ++ b) = rough o a ++ rough o b :=
  List.flatMap_append

section Rendering

variable {o : Options} {depth : Nat} {parent : String}

/-- Pretty markup is indented by a margin. -/
theorem indentation_eq (ho : o.minify = false) (depth : Nat) :
    indentation o depth = margin o depth := by
  unfold indentation margin
  rw [ho]
  rfl

/-- In pretty markup newlines are put between lines. -/
theorem newline_eq (ho : o.minify = false) : newline o = ['\n'] := by
  unfold newline
  rw [ho]
  rfl

@[simp] theorem margin_zero (o : Options) : margin o 0 = [] := by
  unfold margin
  split <;> simp

/-- Nothing is left of a piece exactly if it is blank. -/
theorem isEmpty_trim (piece : List Char) : (trim piece).isEmpty = isBlankLine piece := by
  rw [Bool.eq_iff_iff, List.isEmpty_iff, trim_eq_nil_iff, isBlankLine_iff]

/-- A trimmed line is not blank. -/
theorem isBlankLine_of_trimmed {piece : List Char} (h : isTrimmedLine piece = true) :
    isBlankLine piece = false := by
  obtain ⟨hne, htrim, -⟩ := isTrimmedLine_iff.mp h
  rw [← isEmpty_trim, htrim]
  simpa using hne

/-- Whether the last of these lines is blank. -/
def endsBlank (pieces : List (List Char)) : Bool := pieces.getLast?.any isBlankLine

/-- What is left below a block whose last line is blank: an empty line. -/
def leftover (pieces : List (List Char)) : List PageLine :=
  if endsBlank pieces then [⟨0, []⟩] else []

/-- What is left over is a matter of the last piece. -/
theorem leftover_cons {piece : List Char} {rest : List (List Char)} (hne : rest ≠ []) :
    leftover (piece :: rest) = leftover rest := by
  obtain ⟨next, more, rfl⟩ := List.exists_cons_of_ne_nil hne
  unfold leftover endsBlank
  rw [List.getLast?_cons_cons]

/-- Nothing is left over of trimmed lines. -/
theorem leftover_of_trimmed {pieces : List (List Char)}
    (h : ∀ l ∈ pieces, isTrimmedLine l = true) : leftover pieces = [] := by
  refine if_neg ?_
  rw [endsBlank, Bool.not_eq_true, Option.any_eq_false]
  intro l hl
  rw [isBlankLine_of_trimmed (h l (List.mem_of_getLast? hl))]

section Pieces

variable {piece : List Char} {pieces rest : List (List Char)}

/-- A blank piece gives no line of ink. -/
theorem inkLines_cons_blank (h : trim piece = []) :
    inkLines depth parent (piece :: rest) = inkLines depth parent rest := by
  unfold inkLines
  rw [List.map_cons, List.filter_cons_of_neg (by simp [h])]

/-- A piece that is not blank gives a line of ink. -/
theorem inkLines_cons_inked (h : trim piece ≠ []) :
    inkLines depth parent (piece :: rest)
      = ⟨depth, emit parent (trim piece)⟩ :: inkLines depth parent rest := by
  unfold inkLines
  rw [List.map_cons, List.filter_cons_of_pos (by simp [h]), List.map_cons]

/-- **A block writes its lines**, those that are not blank, and below them an empty
line if its last line is blank. -/
theorem block_eq_rough (hne : pieces ≠ []) :
    block parent (margin o depth) pieces ++ ['\n']
      = rough o (inkLines depth parent pieces ++ leftover pieces) := by
  -- what is left over depends on the last line only, so every other line hands it on
  induction pieces with
  | nil => exact absurd rfl hne
  | cons piece rest ih =>
    by_cases hlast : rest = []
    · subst hlast
      by_cases hblank : trim piece = []
      · have hleft : leftover [piece] = [⟨0, []⟩] := by
          simp [leftover, endsBlank, ← isEmpty_trim, hblank]
        rw [block_cons_blank hblank, inkLines_cons_blank hblank, hleft]
        simp [block, inkLines, rough_cons, PageLine.rough]
      · have hleft : leftover [piece] = [] := by
          simp [leftover, endsBlank, ← isEmpty_trim, hblank]
        rw [block_cons_inked hblank, inkLines_cons_inked hblank, hleft]
        simp [block, inkLines, rough_cons, PageLine.rough]
    · have hmore : rest.isEmpty = false := by simpa using hlast
      rw [leftover_cons hlast]
      by_cases hblank : trim piece = []
      · rw [block_cons_blank hblank, inkLines_cons_blank hblank, ih hlast]
      · rw [block_cons_inked hblank, inkLines_cons_inked hblank, List.cons_append, rough_cons,
          ← ih hlast]
        simp [hmore, PageLine.rough]

end Pieces

/-- A text without newlines is one line. -/
theorem text_of_not_mem (ho : o.minify = false) {content : String} (h : '\n' ∉ content.toList) :
    text o depth parent content = margin o depth ++ emit parent (trim content.toList) := by
  unfold text
  simp only [ho, Bool.false_eq_true, if_false, indentation_eq ho, lines_of_not_mem h]

/-- A text with newlines is a block of its lines. -/
theorem text_of_mem (ho : o.minify = false) {content : String} (h : '\n' ∈ content.toList) :
    text o depth parent content = block parent (margin o depth) (lines content.toList) := by
  unfold text
  simp only [ho, Bool.false_eq_true, if_false, indentation_eq ho]
  split
  next piece hone =>
    -- a single line would be the whole text, and would hold the newline
    have hmem : piece ∈ lines content.toList := by simp [hone]
    have hwhole : piece = content.toList := by
      rw [← unlines_lines content.toList, hone, unlines_singleton]
    rw [← hwhole] at h
    exact absurd h (newline_not_mem_of_mem_lines hmem)
  next => rfl

/-- A text that is not blank has the lines among its own that are not blank. -/
theorem textLines_of_inked {content : List Char}
    (h : ∃ line ∈ lines content, isBlankLine line = false) :
    textLines depth parent content = inkLines depth parent (lines content) := by
  refine if_neg ?_
  intro hall
  obtain ⟨line, hline, hinked⟩ := h
  have hblank := forall_isBlankLine_iff.mpr (List.all_eq_true.mp hall) line hline
  rw [hinked] at hblank
  exact absurd hblank (by decide)

/-- **A text writes its lines**: one line or a gap, or a block of lines. -/
theorem text_eq_rough (ho : o.minify = false) {content : String}
    (h : isTextContent content.toList = true) :
    text o depth parent content ++ ['\n'] = rough o (textLines depth parent content.toList) := by
  by_cases hnewline : '\n' ∈ content.toList
  · -- more than one line: then all of them are trimmed, and so is the last
    have htrimmed := isTextContent_iff.mp h hnewline
    have hinked : ∃ line ∈ lines content.toList, isBlankLine line = false := by
      obtain ⟨line, rest, hlines⟩ := exists_lines_eq content.toList
      have hmem : line ∈ lines content.toList := by simp [hlines]
      exact ⟨line, hmem, isBlankLine_of_trimmed (htrimmed line hmem)⟩
    rw [text_of_mem ho hnewline, block_eq_rough (lines_ne_nil _), leftover_of_trimmed htrimmed,
      List.append_nil, textLines_of_inked hinked]
  · rw [text_of_not_mem ho hnewline]
    unfold textLines
    split
    next hall =>
      have hblank : trim content.toList = [] := trim_eq_nil_iff.mpr (List.all_eq_true.mp hall)
      rw [hblank]
      simp [rough_cons, PageLine.rough, emit, escape]
    next hsome =>
      have hinked : (trim content.toList).isEmpty = false := by
        rw [isEmpty_trim]
        simpa [isBlankLine] using hsome
      rw [lines_of_not_mem hnewline]
      simp [hinked, rough_cons, PageLine.rough]

/-- An element with children is written on one line if it is set out on one. -/
theorem inlineText?_eq {tag : Tag} {children : List Node} (hne : children ≠ []) :
    inlineText? tag children = onOneLine? tag children := by
  unfold inlineText?
  split
  next content =>
    refine if_congr ?_ rfl rfl
    simp only [Bool.and_eq_true, decide_eq_true_eq, Bool.not_eq_true', List.contains_eq_mem,
      decide_eq_false_iff_not]
    exact Iff.rfl
  next hother =>
    unfold onOneLine?
    split
    next => exact absurd rfl hne
    next content => exact absurd rfl (hother content)
    next => rfl

/-- An element is written on one line, or around the lines of its children. -/
theorem node_element (ho : o.minify = false) (tag : Tag) (children : List Node) :
    node o depth parent (.element tag children)
      = match onOneLine? tag children with
        | some said => margin o depth ++ (opening tag ++ said ++ closing tag)
        | none =>
          margin o depth ++ opening tag ++ '\n' :: nodes o (depth + 1) tag.name children
            ++ margin o depth ++ closing tag := by
  rw [node, indentation_eq ho, newline_eq ho]
  by_cases hne : children = []
  · rw [hne]
    simp [onOneLine?]
  · rw [if_neg (by simpa using hne), inlineText?_eq hne]
    cases onOneLine? tag children with
    | some said => simp
    | none => simp

end Rendering

mutual

/-- **A node writes its lines**, if it conforms. -/
theorem node_eq_rough {o : Options} (ho : o.minify = false) (depth level : Nat) (parent : String)
    (n : Node) (h : conforms isReadValue level n = true) :
    node o depth parent n ++ ['\n'] = rough o (pageLinesOf depth parent n) := by
  cases n with
  | doctype name =>
    rw [node, pageLinesOf, rough_cons, rough_nil]
    cases hstyle : o.indentStyle <;> simp [PageLine.rough, margin, hstyle]
  | text content =>
    rw [conforms] at h
    rw [node, pageLinesOf]
    exact text_eq_rough ho h
  | void tag =>
    rw [node, pageLinesOf, rough_cons, rough_nil, indentation_eq ho]
    rfl
  | element tag children =>
    simp only [conforms, Bool.and_eq_true] at h
    rw [node_element ho, pageLinesOf]
    split
    next said hsaid =>
      rw [rough_cons, rough_nil]
      rfl
    next =>
      rw [List.cons_append, rough_cons, rough_append, rough_cons, rough_nil,
        ← nodes_eq_rough ho (depth + 1) (level + 1) tag.name children h.2]
      simp [PageLine.rough]

/-- **Nodes in a row** are written as their lines. -/
theorem nodes_eq_rough {o : Options} (ho : o.minify = false) (depth level : Nat) (parent : String)
    (ns : List Node) (h : allConform isReadValue level ns = true) :
    nodes o depth parent ns = rough o (pageLinesOfAll depth parent ns) := by
  cases ns with
  | nil => rw [nodes, pageLinesOfAll, rough_nil]
  | cons n ns =>
    rw [allConform, Bool.and_eq_true] at h
    rw [nodes, pageLinesOfAll, rough_append, newline_eq ho,
      node_eq_rough ho depth level parent n h.1, nodes_eq_rough ho depth level parent ns h.2]

end

/-! ## §4. Tidying the lines. -/

section Tidying

variable {o : Options} {ls : List PageLine}

/-- A margin is blank. -/
theorem margin_blank (o : Options) (depth : Nat) : ∀ c ∈ margin o depth, isBlank c = true := by
  intro c hc
  unfold margin at hc
  split at hc
  · rw [List.eq_of_mem_replicate hc]
    decide
  · rw [List.eq_of_mem_replicate hc]
    exact isBlank_space

/-- A margin has no newline in it. -/
theorem newline_not_mem_margin (o : Options) (depth : Nat) : '\n' ∉ margin o depth := by
  intro hc
  unfold margin at hc
  split at hc
  · exact absurd (List.eq_of_mem_replicate hc) (by decide)
  · exact absurd (List.eq_of_mem_replicate hc) (by decide)

/-- A sound line, written out, has no newline in it. -/
theorem PageLine.Sound.newline {l : PageLine} (h : l.Sound) : '\n' ∉ l.rough o := by
  unfold PageLine.rough
  rw [List.mem_append, not_or]
  refine ⟨newline_not_mem_margin o l.depth, ?_⟩
  rcases h with hgap | htext
  · simp [hgap]
  · exact (isTrimmedLine_iff.mp htext).2.2

/-- Trimming a line at its end empties a gap and does nothing else. -/
theorem PageLine.Sound.trimRight_rough {l : PageLine} (h : l.Sound) :
    trimRight (l.rough o) = l.setOut o := by
  unfold PageLine.rough PageLine.setOut PageLine.isGap
  rcases h with hgap | htext
  · rw [hgap, List.append_nil]
    exact trimRight_eq_nil_iff.mpr (margin_blank o l.depth)
  · obtain ⟨hne, htrim, -⟩ := isTrimmedLine_iff.mp htext
    have hlast := stops_reverse_trim l.text
    rw [htrim] at hlast
    rw [if_neg (by simpa using hne)]
    apply trimRight_of_stops
    rw [List.reverse_append]
    exact stops_append_of_ne_nil (List.reverse_ne_nil_iff.mpr hne) hlast _

/-- The lines that were written are found again, and an empty one behind the last
newline. -/
theorem lines_rough (h : ∀ l ∈ ls, l.Sound) :
    lines (rough o ls) = ls.map (·.rough o) ++ [[]] := by
  induction ls with
  | nil => rfl
  | cons l ls ih =>
    obtain ⟨hl, hls⟩ := List.forall_mem_cons.mp h
    rw [rough_cons, lines_append_newline, lines_of_not_mem hl.newline, ih hls, List.map_cons]
    rfl

/-- An empty line at the end does not count. -/
theorem dropEnds_concat_nil (ms : List (List Char)) : dropEnds (ms ++ [[]]) = dropEnds ms := by
  unfold dropEnds
  rw [rdropWhile_dropWhile, rdropWhile_dropWhile, List.rdropWhile_concat_pos _ _ _ rfl]

/-- The lines of the rough text, trimmed, are the lines set out, and an empty one. -/
theorem map_trimRight_lines_rough (h : ∀ l ∈ ls, l.Sound) :
    (lines (rough o ls)).map trimRight = ls.map (·.setOut o) ++ [[]] := by
  rw [lines_rough h, List.map_append, List.map_map]
  congr 1
  exact List.map_congr_left fun l hl => (h l hl).trimRight_rough

/-- **Tidied lines**: the gaps are empty, and the needless ones are gone. -/
theorem tidy_rough (h : ∀ l ∈ ls, l.Sound) :
    tidy (rough o ls) = unlines (squash (dropEnds (ls.map (·.setOut o)))) := by
  rw [tidy_eq_unlines, tidyLines, map_trimRight_lines_rough h, dropEnds_concat_nil]

/-- A line is empty when it is set out exactly if it is a gap. -/
theorem isEmpty_setOut (o : Options) (l : PageLine) : (l.setOut o).isEmpty = l.isGap := by
  unfold PageLine.setOut
  split
  next hgap =>
    rw [hgap]
    rfl
  next hline =>
    have hne : l.text ≠ [] := by simpa [PageLine.isGap] using hline
    simp [hne, hline]

/-- The lines that are not gaps are the lines that are not blank. -/
theorem filter_lines_tidy_rough (h : ∀ l ∈ ls, l.Sound) :
    (lines (tidy (rough o ls))).filter (fun l => !isBlankLine l)
      = (ls.filter fun l => !l.isGap).map (·.setOut o) := by
  have hcomp : (fun cs : List Char => !cs.isEmpty) ∘ PageLine.setOut o
      = fun l : PageLine => !l.isGap := funext fun l => congrArg (!·) (isEmpty_setOut o l)
  rw [filter_lines_tidy, map_trimRight_lines_rough h, List.filter_append, List.filter_map, hcomp]
  exact List.append_nil _

end Tidying

/-! ## §5. Pages. -/

/-- A page that is set out as the lines of a forest say. -/
structure SetOutAs (o : Options) (ls : List PageLine) (page : List Char) : Prop where
  /-- The lines that are not blank are those of the forest, in order, each behind
  its margin. -/
  inked : (lines page).filter (fun l => !isBlankLine l)
    = (ls.filter fun l => !l.isGap).map fun l => margin o l.depth ++ l.text
  /-- Nothing but the margin is in front of the text of a line. -/
  exact : ∀ l ∈ ls, l.isGap = false → isTrimmedLine l.text = true
  /-- A blank line stands for a gap; only gaps at the ends and gaps behind gaps
  are left out. -/
  gaps : page = unlines (squash (dropEnds (ls.map (·.setOut o))))
  /-- So no blank line is the first or the last, or follows another. -/
  apart : page = [] ∨ IsTidy (lines page)
  /-- A page without a line that is not blank is empty. -/
  empty : (∀ l ∈ lines page, isBlankLine l = true) → page = []

/-- **The rough text, tidied**, is set out as its lines say. -/
theorem setOutAs_tidy_rough {o : Options} {ls : List PageLine} (h : ∀ l ∈ ls, l.Sound) :
    SetOutAs o ls (tidy (rough o ls)) where
  inked := by
    rw [filter_lines_tidy_rough h]
    refine List.map_congr_left ?_
    intro l hl
    have hline : ¬ l.isGap = true := by simpa using (List.mem_filter.mp hl).2
    exact if_neg hline
  exact := by
    intro l hl hline
    refine (h l hl).resolve_left ?_
    simpa [PageLine.isGap] using hline
  gaps := tidy_rough h
  apart := isTidy_lines_tidy _
  empty := by
    intro hblank
    rw [forall_isBlankLine_iff, ← tidy_eq_nil_iff, tidy_tidy] at hblank
    exact hblank

/-- What a generator gives: a page that is set out as the lines of the forest say,
unless the forest cannot be indented. -/
def IsSetOut (room : Text.Room) (o : Options) (forest : List Node) :
    Except GenerateError String → Prop
  | .error e => ∃ reason, overflow? room o forest = some reason ∧ e = .indentation reason
  | .ok page => SetOutAs o (pageLines forest) page.toList

/-- **A PRETTY PAGE IS THE OUTLINE OF ITS FOREST.**  Its lines that are not blank are
the lines of the forest, in order, each behind the margin of its depth.  Blank lines
stand only where a blank text leaves a gap, never two in a row and never at the
ends. -/
theorem generate_sets_out_page_lines (source : String) (forest : List Node) (g : Generator)
    (files : Files) (options : Option Options) (hparse : parse source = .ok forest)
    (hpretty : (options.getD g.options).minify = false)
    (hplain : (options.getD g.options).useFormatter = false) (hlive : g.disposed = false) :
    IsSetOut g.room (options.getD g.options) forest (g.generate files forest options).result := by
  have hconforms := conforms_of_parse hparse
  have hsound : ∀ l ∈ pageLines forest, l.Sound := sound_pageLinesOfAll 0 1 "" forest hconforms
  rw [generate_plain hplain hlive]
  cases hover : overflow? g.room (options.getD g.options) forest with
  | some reason => exact ⟨reason, hover, rfl⟩
  | none =>
    have hrender : render (options.getD g.options) forest
        = rough (options.getD g.options) (pageLines forest) :=
      nodes_eq_rough hpretty 0 1 "" forest hconforms
    show SetOutAs _ (pageLines forest) (plainText _ forest).toList
    unfold plainText
    rw [if_neg (by simp [hpretty]), tidyString, markup, String.toList_ofList,
      String.toList_ofList, hrender]
    exact setOutAs_tidy_rough hsound

/-- A source with a style sheet and with blank texts, of which two stand side by side
and one at the end. -/
def airySource : String :=
  "!DOCTYPE html\n|\ndiv\n  p: x < y\n  | ''\n  |\n  style: |\n    a\n    b > c\n|"

/-- The forest of that source. -/
def airy : List Node :=
  [.doctype "html", .text "",
    .element ⟨"div", [], none, []⟩
      [.element ⟨"p", [], none, []⟩ [.text "x < y"], .text "", .text "",
        .element ⟨"style", [], none, []⟩ [.text "a\nb > c"]],
    .text ""]

/-- Its page, indented by tabs. -/
def airyPage : String :=
  "<!DOCTYPE html>\n\n<div>\n\t<p>x &lt; y</p>\n\n\t<style>\n\t\ta\n\t\tb > c\n\t</style>\n</div>"

theorem generate_sets_out_page_lines_airy :
    parse airySource = .ok airy
      ∧ (plainGenerator.generate (Files.fresh []) airy
          (some { indentStyle := .tabs, useFormatter := false })).result = .ok airyPage
      ∧ SetOutAs { indentStyle := .tabs, useFormatter := false } (pageLines airy)
          airyPage.toList := by
  have hparse : parse airySource = .ok airy := by
    rw [parse_eq_ok_iff, check_eq_ok_iff]
    exact ⟨⟨by decide, by decide, by rfl⟩, by decide +kernel⟩
  have hpage : (plainGenerator.generate (Files.fresh []) airy
      (some { indentStyle := .tabs, useFormatter := false })).result = .ok airyPage := by
    decide +kernel
  have hset := generate_sets_out_page_lines airySource airy plainGenerator (Files.fresh [])
    (some { indentStyle := .tabs, useFormatter := false }) hparse rfl rfl rfl
  rw [hpage] at hset
  exact ⟨hparse, hpage, hset⟩

end Offside.Markup
