/-
  Offside.Proofs.Tidy
  ───────────────────
  Tidying, said on lines.

  Tidying works on runs of blank characters (`tidy_eq_cut`).  `tidy_eq_unlines` says what
  that comes to line by line: blanks at the ends of lines go, so do blank lines at
  either end of the text, and of several blank lines in a row one is kept.

  A run of blanks that holds a newline is the end of one line, some blank
  lines, and the start of another line.  So shrinking such a run touches the
  blank lines only, which is what the induction in `exists_shrink_unlines`
  follows: from one line that is not blank to the next.
-/
import Offside.Proofs.BlankRuns

namespace Offside.Markup

open Text

/-! ## §1. Lines, tidied. -/

/-- Whether nothing but blanks is on a line. -/
def isBlankLine (line : List Char) : Bool := line.all isBlank

/-- Of several empty lines in a row, one. -/
def squash : List (List Char) → List (List Char)
  | [] => []
  | line :: rest =>
    if line.isEmpty && rest.head? == some [] then squash rest else line :: squash rest

/-- Without the empty lines at either end. -/
def dropEnds (ls : List (List Char)) : List (List Char) :=
  (ls.dropWhile List.isEmpty).rdropWhile List.isEmpty

/-- The lines of a tidy text. -/
def tidyLines (ls : List (List Char)) : List (List Char) :=
  squash (dropEnds (ls.map trimRight))

/-! ## §2. Dropping from the end. -/

section Ends

variable {α : Type} {p : α → Bool}

/-- It does not matter at which end dropping starts. -/
theorem rdropWhile_dropWhile (l : List α) :
    (l.dropWhile p).rdropWhile p = (l.rdropWhile p).dropWhile p := by
  induction l with
  | nil => rfl
  | cons x l ih =>
    cases hx : p x with
    | false =>
      rw [List.dropWhile_cons_of_neg (by simp [hx]), ← List.nil_append (x :: l),
        rdropWhile_append_cons hx, List.nil_append, List.dropWhile_cons_of_neg (by simp [hx])]
    | true =>
      rw [List.dropWhile_cons_of_pos hx, ih]
      by_cases hall : ∀ y ∈ l, p y = true
      · have hall' : ∀ y ∈ x :: l, p y = true := List.forall_mem_cons.mpr ⟨hx, hall⟩
        rw [List.rdropWhile_eq_nil_iff.mpr hall, List.rdropWhile_eq_nil_iff.mpr hall']
      · -- something is kept behind `x`, so `x` is still there to be dropped
        obtain ⟨y, hy, hpy⟩ : ∃ y ∈ l, p y = false := by simpa using hall
        obtain ⟨a, b, rfl⟩ := List.append_of_mem hy
        rw [rdropWhile_append_cons hpy, ← List.cons_append, rdropWhile_append_cons hpy,
          List.cons_append, List.dropWhile_cons_of_pos hx]

end Ends

/-! ## §3. Laws of squashing. -/

section Squash

variable {ls : List (List Char)} {line : List Char}

/-- A line that is not empty is kept. -/
theorem squash_cons_of_ne_nil (h : line ≠ []) : squash (line :: ls) = line :: squash ls := by
  rw [squash, if_neg (by simp [h])]

/-- Empty lines in front of a line that is not empty. -/
theorem squash_append {es : List (List Char)} (hes : ∀ e ∈ es, e = []) (h : line ≠ []) :
    squash (es ++ line :: ls) = es.take 1 ++ line :: squash ls := by
  induction es with
  | nil => exact squash_cons_of_ne_nil h
  | cons e es ih =>
    have ih' := ih fun d hd => hes d (List.mem_cons_of_mem _ hd)
    have he : e = [] := hes e List.mem_cons_self
    rw [List.cons_append, squash, he]
    cases es with
    | nil =>
      rw [if_neg (by simp [h]), ih']
      rfl
    | cons d es =>
      have hd : d = [] := hes d (by simp)
      rw [if_pos (by simp [hd]), ih', hd]
      rfl

/-- Empty lines at the start may be dropped before or after. -/
theorem dropWhile_squash (ls : List (List Char)) :
    (squash ls).dropWhile List.isEmpty = squash (ls.dropWhile List.isEmpty) := by
  induction ls with
  | nil => rfl
  | cons line ls ih =>
    by_cases hline : line = []
    · rw [hline, List.dropWhile_cons_of_pos rfl, ← ih, squash]
      split
      · rfl
      · exact List.dropWhile_cons_of_pos rfl
    · have hne : ¬ line.isEmpty = true := by simpa using hline
      rw [squash_cons_of_ne_nil hline, List.dropWhile_cons_of_neg hne,
        List.dropWhile_cons_of_neg hne, squash_cons_of_ne_nil hline]

end Squash

/-! ## §4. The edges. -/

theorem isBlankLine_iff {line : List Char} :
    isBlankLine line = true ↔ ∀ c ∈ line, isBlank c = true :=
  List.all_eq_true

/-- A line is empty once it is trimmed exactly if it is blank. -/
theorem isEmpty_trimRight (line : List Char) : (trimRight line).isEmpty = isBlankLine line := by
  rw [Bool.eq_iff_iff, List.isEmpty_iff, trimRight_eq_nil_iff, isBlankLine_iff]

/-- A blank line at the start is cut off. -/
theorem cutLeading_blankLine {line : List Char} (h : isBlankLine line = true) (cs : List Char) :
    cutLeading (line ++ '\n' :: cs) = cutLeading cs := by
  have hblank : ∀ c ∈ line ++ ['\n'], isBlank c = true := by
    rw [List.forall_mem_append]
    exact ⟨isBlankLine_iff.mp h, by simp [isBlank_newline]⟩
  have hassoc : line ++ '\n' :: cs = (line ++ ['\n']) ++ cs := by simp
  rw [cutLeading_eq, cutLeading_eq, hassoc, List.takeWhile_append_of_pos hblank,
    List.dropWhile_append_of_pos hblank, List.append_assoc, List.singleton_append,
    rtakeWhile_append_cons (by decide)]

/-- A line that is not blank stops the cutting. -/
theorem cutLeading_of_line {line : List Char} (h : isBlankLine line = false)
    (hnewline : '\n' ∉ line) (cs : List Char) : cutLeading (line ++ cs) = line ++ cs := by
  have htake : (line ++ cs).takeWhile isBlank = line.takeWhile isBlank := by
    rw [List.takeWhile_append, if_neg]
    intro hlen
    have hself : line.takeWhile isBlank = line := (List.takeWhile_prefix _).eq_of_length hlen
    rw [List.takeWhile_eq_self_iff, ← isBlankLine_iff, h] at hself
    exact absurd hself (by decide)
  unfold cutLeading
  simp only [htake]
  rw [if_neg]
  intro hmem
  rw [List.contains_eq_mem, decide_eq_true_iff] at hmem
  exact hnewline ((List.takeWhile_sublist _).subset hmem)

/-- Cutting the start drops the blank lines there. -/
theorem cutLeading_unlines {ls : List (List Char)} (hls : ∀ l ∈ ls, '\n' ∉ l)
    (h : ∃ l ∈ ls, isBlankLine l = false) :
    cutLeading (unlines ls) = unlines (ls.dropWhile isBlankLine) := by
  induction ls with
  | nil => simp at h
  | cons l ls ih =>
    cases hl : isBlankLine l with
    | true =>
      obtain ⟨m, hm, hdark⟩ : ∃ m ∈ ls, isBlankLine m = false := by simpa [hl] using h
      rw [unlines_cons (List.ne_nil_of_mem hm), cutLeading_blankLine hl,
        ih (fun k hk => hls k (List.mem_cons_of_mem _ hk)) ⟨m, hm, hdark⟩,
        List.dropWhile_cons_of_pos hl]
    | false =>
      rw [List.dropWhile_cons_of_neg (by simp [hl]), ← List.append_nil l,
        ← append_unlines_cons, cutLeading_of_line hl (hls l List.mem_cons_self)]

theorem isBlankLine_reverse (line : List Char) : isBlankLine line.reverse = isBlankLine line := by
  simp [isBlankLine]

/-- Cutting the end drops the blank lines there. -/
theorem cutTrailing_unlines {ls : List (List Char)} (hls : ∀ l ∈ ls, '\n' ∉ l)
    (h : ∃ l ∈ ls, isBlankLine l = false) :
    cutTrailing (unlines ls) = unlines (ls.rdropWhile isBlankLine) := by
  -- cutting at the end is cutting at the start of the text read backwards
  have hcomp : isBlankLine ∘ List.reverse = isBlankLine := funext isBlankLine_reverse
  have hrev : ∀ l ∈ (ls.map List.reverse).reverse, '\n' ∉ l := by
    intro l hl
    obtain ⟨m, hm, rfl⟩ := List.mem_map.mp (List.mem_reverse.mp hl)
    rw [List.mem_reverse]
    exact hls m hm
  have hdark : ∃ l ∈ (ls.map List.reverse).reverse, isBlankLine l = false := by
    obtain ⟨m, hm, hdark⟩ := h
    refine ⟨m.reverse, List.mem_reverse.mpr (List.mem_map_of_mem hm), ?_⟩
    rw [isBlankLine_reverse, hdark]
  have hswap : (ls.map List.reverse).reverse = ls.reverse.map List.reverse :=
    List.map_reverse.symm
  unfold cutTrailing List.rdropWhile
  rw [reverse_unlines, cutLeading_unlines hrev hdark, reverse_unlines, hswap,
    List.dropWhile_map, hcomp, List.map_map]
  simp

/-- Of a text without anything but blanks, its last line is left. -/
theorem cutLeading_of_blank {cs : List Char} (h : ∀ c ∈ cs, isBlank c = true) :
    cutLeading cs = cs.rtakeWhile (· != '\n') := by
  rw [cutLeading_eq, List.takeWhile_eq_self_iff.mpr h, List.dropWhile_eq_nil_iff.mpr h,
    List.append_nil]

/-- Of blanks alone, one empty line is left. -/
theorem map_trimRight_edges_of_blank {cs : List Char} (h : ∀ c ∈ cs, isBlank c = true) :
    (lines (cutTrailing (cutLeading cs))).map trimRight = [[]] := by
  have hcut : ∀ c ∈ cutTrailing (cutLeading cs), isBlank c = true ∧ c ≠ '\n' := by
    intro c hc
    have hlead : ∀ d ∈ (cutLeading cs).reverse, isBlank d = true ∧ d ≠ '\n' := by
      intro d hd
      rw [List.mem_reverse, cutLeading_of_blank h] at hd
      refine ⟨h d ((List.rtakeWhile_suffix _ _).subset hd), ?_⟩
      simpa using List.mem_rtakeWhile_imp hd
    unfold cutTrailing at hc
    rw [List.mem_reverse, cutLeading_of_blank fun d hd => (hlead d hd).1] at hc
    exact hlead c ((List.rtakeWhile_suffix _ _).subset hc)
  rw [lines_of_not_mem fun hmem => (hcut _ hmem).2 rfl, List.map_singleton,
    trimRight_eq_nil_iff.mpr fun c hc => (hcut c hc).1]

theorem map_trimRight_dropWhile (ls : List (List Char)) :
    (ls.dropWhile isBlankLine).map trimRight = (ls.map trimRight).dropWhile List.isEmpty := by
  have hcomp : List.isEmpty ∘ trimRight = isBlankLine := funext isEmpty_trimRight
  rw [List.dropWhile_map, hcomp]

theorem map_trimRight_rdropWhile (ls : List (List Char)) :
    (ls.rdropWhile isBlankLine).map trimRight = (ls.map trimRight).rdropWhile List.isEmpty := by
  unfold List.rdropWhile
  rw [List.map_reverse, map_trimRight_dropWhile, List.map_reverse]

/-- **Both edges.**  Cutting them drops the blank lines at the ends. -/
theorem unlines_edges {ls : List (List Char)} (hls : ∀ l ∈ ls, '\n' ∉ l) :
    unlines ((lines (cutTrailing (cutLeading (unlines ls)))).map trimRight)
      = unlines (dropEnds (ls.map trimRight)) := by
  by_cases h : ∃ l ∈ ls, isBlankLine l = false
  · have hls' : ∀ l ∈ ls.dropWhile isBlankLine, '\n' ∉ l := fun l hl =>
      hls l ((List.dropWhile_sublist _).subset hl)
    have h' : ∃ l ∈ ls.dropWhile isBlankLine, isBlankLine l = false := by
      have hstop := stops_dropWhile (p := isBlankLine) ls
      cases hd : ls.dropWhile isBlankLine with
      | nil =>
        obtain ⟨l, hl, hdark⟩ := h
        rw [List.dropWhile_eq_nil_iff.mp hd l hl] at hdark
        exact absurd hdark (by decide)
      | cons l rest =>
        rw [hd, stops_cons] at hstop
        exact ⟨l, List.mem_cons_self, hstop⟩
    have hkept : (ls.dropWhile isBlankLine).rdropWhile isBlankLine ≠ [] := by
      rw [Ne, List.rdropWhile_eq_nil_iff]
      obtain ⟨l, hl, hdark⟩ := h'
      intro hall
      rw [hall l hl] at hdark
      exact absurd hdark (by decide)
    rw [cutLeading_unlines hls h, cutTrailing_unlines hls' h', lines_unlines hkept,
      map_trimRight_rdropWhile, map_trimRight_dropWhile]
    · rfl
    · intro l hl
      exact hls' l ((List.rdropWhile_prefix _ _).subset hl)
  · -- a text of blanks: one blank line is left of it, and no line of the list
    have hall : ∀ l ∈ ls, isBlankLine l = true := by simpa using h
    have hblank : ∀ c ∈ unlines ls, isBlank c = true := by
      intro c hc
      rcases mem_unlines hc with rfl | ⟨l, hl, hcl⟩
      · exact isBlank_newline
      · exact isBlankLine_iff.mp (hall l hl) c hcl
    have hempty : (ls.map trimRight).dropWhile List.isEmpty = [] := by
      rw [← map_trimRight_dropWhile, List.dropWhile_eq_nil_iff.mpr hall, List.map_nil]
    rw [map_trimRight_edges_of_blank hblank, dropEnds, hempty]
    rfl

/-! ## §5. Shrinking. -/

/-- The blank lines that are left between two lines. -/
def kept (es : List (List Char)) : List (List Char) := if es.length < 2 then es else [[]]

/-- Of the blank lines in a run, some are kept. -/
theorem shrinkRun_unlines {es : List (List Char)} {before after : List Char}
    (hes : ∀ e ∈ es, '\n' ∉ e) (hbefore : '\n' ∉ before) (hafter : '\n' ∉ after) :
    shrinkRun (unlines (before :: es ++ [after])) = unlines (before :: kept es ++ [after]) := by
  have hlines : ∀ l ∈ before :: es ++ [after], '\n' ∉ l := by
    simp only [List.cons_append, List.forall_mem_cons, List.forall_mem_append]
    exact ⟨hbefore, hes, hafter, by simp⟩
  have hcount := count_unlines (by simp) hlines
  have hlength : (before :: es ++ [after]).length = es.length + 2 := by simp
  unfold shrinkRun kept
  simp only
  -- a run with at most two newlines, that is with at most one blank line, is kept
  by_cases hfew : es.length < 2
  · rw [if_pos (by omega), if_pos hfew]
  · have hfirst : (unlines (before :: es ++ [after])).takeWhile (· != '\n') = before := by
      rw [List.cons_append, unlines_cons (by simp)]
      exact takeWhile_run (bne_newline hbefore) (by simp)
    have hlast : ((unlines (before :: es ++ [after])).reverse.takeWhile (· != '\n')).reverse
        = after := by
      show (unlines (before :: es ++ [after])).rtakeWhile (· != '\n') = after
      rw [unlines_append (by simp) (by simp), unlines_singleton,
        rtakeWhile_append_cons (by decide), List.rtakeWhile_eq_self_iff]
      exact bne_newline hafter
    rw [if_neg (by omega), if_neg hfew, hfirst, hlast, List.cons_append, List.singleton_append,
      unlines_cons (by simp), unlines_cons (by simp), unlines_singleton]
    rfl

/-- **From one line to the next.**  Only the blank lines between are shrunk. -/
theorem shrink_unlines_append {line after b : List Char} {es : List (List Char)}
    (hline : '\n' ∉ line) (hes : ∀ e ∈ es, isBlankLine e = true ∧ '\n' ∉ e)
    (hafter : isBlankLine after = true ∧ '\n' ∉ after) (hb : Stops isBlank b) :
    shrink (unlines (line :: es ++ [after]) ++ b)
      = unlines (line :: kept es ++ [after]) ++ shrink b := by
  -- the run starts with the blanks at the end of `line`
  obtain ⟨before, hblank, hsplit⟩ := exists_blank_trimRight line
  have hglue : ∀ ms, unlines (line :: ms) = trimRight line ++ unlines (before :: ms) := by
    intro ms
    rw [append_unlines_cons, ← hsplit]
  have hnewline : '\n' ∉ trimRight line ∧ '\n' ∉ before := by
    rw [hsplit, List.mem_append, not_or] at hline
    exact hline
  have hrun : ∀ c ∈ unlines (before :: es ++ [after]), isBlank c = true := by
    intro c hc
    rcases mem_unlines hc with rfl | ⟨l, hl, hcl⟩
    · exact isBlank_newline
    · simp only [List.cons_append, List.mem_cons, List.mem_append] at hl
      rcases hl with rfl | hl | rfl | hl
      · exact hblank c hcl
      · exact isBlankLine_iff.mp (hes l hl).1 c hcl
      · exact isBlankLine_iff.mp hafter.1 c hcl
      · simp at hl
  have hne : unlines (before :: es ++ [after]) ≠ [] := by
    rw [List.cons_append, unlines_cons (by simp)]
    simp
  rw [List.cons_append, hglue, List.append_assoc, ← List.cons_append,
    shrink_around (stops_reverse_trimRight line) hne hrun hb, shrink_of_not_mem hnewline.1,
    shrinkRun_unlines (fun e he => (hes e he).2) hnewline.2 hafter.2, List.cons_append,
    List.cons_append, hglue, List.append_assoc]

/-- No line is kept that was not there, but for an empty one. -/
theorem mem_kept {es : List (List Char)} {e : List Char} (h : e ∈ kept es) : e ∈ es ∨ e = [] := by
  unfold kept at h
  split at h
  · exact .inl h
  · exact .inr (by simpa using h)

/-- Blank lines are empty once they are trimmed. -/
theorem map_trimRight_blank {es : List (List Char)} (hes : ∀ e ∈ es, isBlankLine e = true) :
    ∀ e ∈ es.map trimRight, e = [] := by
  intro e he
  obtain ⟨d, hd, rfl⟩ := List.mem_map.mp he
  rw [← List.isEmpty_iff, isEmpty_trimRight, hes d hd]

/-- Once they are trimmed, at most one of the blank lines is kept. -/
theorem map_trimRight_kept {es : List (List Char)} (hes : ∀ e ∈ es, isBlankLine e = true) :
    (kept es).map trimRight = (es.map trimRight).take 1 := by
  unfold kept
  match es, hes with
  | [], _ => rfl
  | [e], _ => rfl
  | e :: d :: es, hes =>
    have he := map_trimRight_blank hes (trimRight e) (by simp)
    rw [if_neg (by simp)]
    show [trimRight []] = [trimRight e]
    rw [he]
    rfl

/-- The lines of a text that count, once they are trimmed: up to the last one
that is not empty. -/
def inked (ls : List (List Char)) : List (List Char) :=
  (ls.map trimRight).rdropWhile List.isEmpty

/-- Blank lines do not count. -/
theorem inked_of_blank {ls : List (List Char)} (h : ∀ l ∈ ls, isBlankLine l = true) :
    inked ls = [] := by
  unfold inked
  rw [List.rdropWhile_eq_nil_iff]
  intro l hl
  rw [map_trimRight_blank h l hl]
  rfl

/-- A line that is not blank keeps the lines in front of it. -/
theorem inked_append {line : List Char} (hline : isBlankLine line = false)
    (es ls : List (List Char)) :
    inked (es ++ line :: ls) = es.map trimRight ++ trimRight line :: inked ls := by
  have hne : (trimRight line).isEmpty = false := by rw [isEmpty_trimRight, hline]
  unfold inked
  rw [List.map_append, List.map_cons, rdropWhile_append_cons hne]

/-- Nothing but blank lines follows: some of them are left. -/
theorem exists_shrink_blank {line : List Char} {rest : List (List Char)} (hline : '\n' ∉ line)
    (hrest : ∀ e ∈ rest, isBlankLine e = true ∧ '\n' ∉ e) :
    ∃ left, shrink (unlines (line :: rest)) = unlines (line :: left)
      ∧ ∀ e ∈ left, isBlankLine e = true ∧ '\n' ∉ e := by
  rcases List.eq_nil_or_concat rest with rfl | ⟨es, after, rfl⟩
  · exact ⟨[], by rw [unlines_singleton, shrink_of_not_mem hline], by simp⟩
  · rw [List.concat_eq_append] at hrest ⊢
    obtain ⟨hes, hafter⟩ := List.forall_mem_append.mp hrest
    have hshrink := shrink_unlines_append hline hes (hafter after (by simp)) stops_nil
    rw [List.append_nil, List.cons_append, List.cons_append] at hshrink
    refine ⟨kept es ++ [after], ?_, ?_⟩
    · rw [hshrink]
      exact List.append_nil _
    · rw [List.forall_mem_append]
      refine ⟨fun e he => ?_, hafter⟩
      rcases mem_kept he with he | rfl
      · exact hes e he
      · exact ⟨rfl, by simp⟩

/-- Blank lines up to one that is not blank: what is left of them, and that
line, and what is left behind it. -/
theorem shrink_to_next {line next : List Char} {es tail left : List (List Char)}
    (hline : '\n' ∉ line) (hes : ∀ e ∈ es, isBlankLine e = true ∧ '\n' ∉ e)
    (hnext : isBlankLine next = false) (hnewline : '\n' ∉ next)
    (htail : shrink (unlines (next.dropWhile isBlank :: tail))
      = unlines (next.dropWhile isBlank :: left)) :
    shrink (unlines (line :: (es ++ next :: tail)))
      = unlines (line :: (kept es ++ next :: left)) := by
  -- the blanks in front of the next line belong to the run before it
  have hsplit : next.takeWhile isBlank ++ next.dropWhile isBlank = next :=
    List.takeWhile_append_dropWhile
  have hfront : isBlankLine (next.takeWhile isBlank) = true ∧ '\n' ∉ next.takeWhile isBlank :=
    ⟨isBlankLine_iff.mpr fun c hc => List.mem_takeWhile_imp hc, fun hc =>
      hnewline ((List.takeWhile_sublist _).subset hc)⟩
  have hdark : next.dropWhile isBlank ≠ [] := by
    rw [Ne, List.dropWhile_eq_nil_iff, ← isBlankLine_iff, hnext]
    decide
  have hstart : Stops isBlank (unlines (next.dropWhile isBlank :: tail)) := by
    have hfirst := stops_dropWhile (p := isBlank) next
    rw [← List.append_nil (next.dropWhile isBlank), ← append_unlines_cons]
    cases hd : next.dropWhile isBlank with
    | nil => exact absurd hd hdark
    | cons c cs =>
      rw [hd, stops_cons] at hfirst
      exact stops_cons.mpr hfirst
  calc shrink (unlines (line :: (es ++ next :: tail)))
      = shrink (unlines (line :: es ++ [next.takeWhile isBlank])
          ++ unlines (next.dropWhile isBlank :: tail)) := by
        rw [unlines_glue, hsplit, List.cons_append]
    _ = unlines (line :: kept es ++ [next.takeWhile isBlank])
          ++ unlines (next.dropWhile isBlank :: left) := by
        rw [shrink_unlines_append hline hes hfront hstart, htail]
    _ = unlines (line :: (kept es ++ next :: left)) := by
        rw [unlines_glue, hsplit, List.cons_append]

/-- **Shrinking, line by line.**  The first line stays.  Of the lines behind it
that count, those are left that squashing leaves. -/
theorem exists_shrink_unlines (line : List Char) (rest : List (List Char))
    (hls : ∀ l ∈ line :: rest, '\n' ∉ l) :
    ∃ left, shrink (unlines (line :: rest)) = unlines (line :: left) ∧ (∀ l ∈ left, '\n' ∉ l)
      ∧ inked left = squash (inked rest) := by
  -- from `line` on to the next line that is not blank, or to the end of the text
  induction hn : rest.length using Nat.strong_induction_on generalizing line rest with
  | _ n ih =>
  obtain ⟨hline, hrest⟩ := List.forall_mem_cons.mp hls
  have hes : ∀ e ∈ rest.takeWhile isBlankLine, isBlankLine e = true ∧ '\n' ∉ e := fun e he =>
    ⟨List.mem_takeWhile_imp he, hrest e ((List.takeWhile_sublist _).subset he)⟩
  have hsplit := List.takeWhile_append_dropWhile (p := isBlankLine) (l := rest)
  cases htail : rest.dropWhile isBlankLine with
  | nil =>
    rw [htail, List.append_nil] at hsplit
    rw [hsplit] at hes
    obtain ⟨left, hshrink, hleft⟩ := exists_shrink_blank hline hes
    refine ⟨left, hshrink, fun l hl => (hleft l hl).2, ?_⟩
    rw [inked_of_blank fun l hl => (hleft l hl).1, inked_of_blank fun l hl => (hes l hl).1]
    rfl
  | cons next tail =>
    have hnext := stops_dropWhile (p := isBlankLine) rest
    rw [htail, stops_cons] at hnext
    rw [htail] at hsplit
    have hbehind : ∀ l ∈ next :: tail, '\n' ∉ l := fun l hl =>
      hrest l ((List.dropWhile_sublist _).subset (by rwa [htail]))
    rw [List.forall_mem_cons] at hbehind
    have hshort : tail.length < n := by
      rw [← hn, ← hsplit, List.length_append, List.length_cons]
      omega
    obtain ⟨left, hshrink, hleft, hinked⟩ := ih tail.length hshort (next.dropWhile isBlank) tail
      (List.forall_mem_cons.mpr
        ⟨fun hc => hbehind.1 ((List.dropWhile_sublist _).subset hc), hbehind.2⟩) rfl
    have hblank : ∀ e ∈ rest.takeWhile isBlankLine, isBlankLine e = true := fun e he =>
      (hes e he).1
    have hne : trimRight next ≠ [] := by
      rw [Ne, ← List.isEmpty_iff, isEmpty_trimRight, hnext]
      decide
    refine ⟨kept (rest.takeWhile isBlankLine) ++ next :: left, ?_, ?_, ?_⟩
    · rw [← shrink_to_next hline hes hnext hbehind.1 hshrink, hsplit]
    · rw [List.forall_mem_append, List.forall_mem_cons]
      refine ⟨fun e he => ?_, hbehind.1, hleft⟩
      rcases mem_kept he with he | rfl
      · exact (hes e he).2
      · simp
    · conv_rhs => rw [← hsplit]
      rw [inked_append hnext, inked_append hnext, hinked, map_trimRight_kept hblank,
        squash_append (map_trimRight_blank hblank) hne]

/-! ## §6. Tidying. -/

theorem filter_dropWhile_isEmpty (ls : List (List Char)) :
    (ls.dropWhile List.isEmpty).filter (!·.isEmpty) = ls.filter (!·.isEmpty) := by
  induction ls with
  | nil => rfl
  | cons line ls ih =>
    by_cases hline : line.isEmpty = true
    · rw [List.dropWhile_cons_of_pos hline, ih, List.filter_cons_of_neg (by simp [hline])]
    · rw [List.dropWhile_cons_of_neg hline]

/-- Squashing keeps the lines that are not empty. -/
theorem filter_squash (ls : List (List Char)) :
    (squash ls).filter (!·.isEmpty) = ls.filter (!·.isEmpty) := by
  induction ls with
  | nil => rfl
  | cons line ls ih =>
    rw [squash]
    split
    next h =>
      have hline : line.isEmpty = true := (Bool.and_eq_true _ _ ▸ h).1
      rw [ih, List.filter_cons_of_neg (by simp [hline])]
    next => rw [List.filter_cons, List.filter_cons, ih]

/-- Squashing adds no line. -/
theorem squash_sublist (ls : List (List Char)) : (squash ls).Sublist ls := by
  induction ls with
  | nil => exact List.Sublist.refl _
  | cons line ls ih =>
    rw [squash]
    split
    · exact ih.cons line
    · exact ih.cons_cons line

/-- Of the lines of a text, tidying drops empty ones only. -/
theorem squash_dropEnds (ls : List (List Char)) :
    (squash (dropEnds ls)).Sublist ls
      ∧ (squash (dropEnds ls)).filter (!·.isEmpty) = ls.filter (!·.isEmpty) := by
  constructor
  · exact (squash_sublist _).trans
      ((List.rdropWhile_prefix _ _).sublist.trans (List.dropWhile_sublist _))
  · unfold dropEnds List.rdropWhile
    rw [filter_squash, List.filter_reverse, filter_dropWhile_isEmpty, List.filter_reverse,
      List.reverse_reverse, filter_dropWhile_isEmpty]

/-- **Tidying, line by line.** -/
theorem tidy_eq_unlines (cs : List Char) : tidy cs = unlines (tidyLines (lines cs)) := by
  obtain ⟨line, rest, hcs⟩ := exists_lines_eq cs
  have hls : ∀ l ∈ line :: rest, '\n' ∉ l := by
    intro l hl
    rw [← hcs] at hl
    exact newline_not_mem_of_mem_lines hl
  obtain ⟨left, hshrink, hleft, hbody⟩ := exists_shrink_unlines line rest hls
  have hleft' : ∀ l ∈ line :: left, '\n' ∉ l :=
    List.forall_mem_cons.mpr ⟨hls line List.mem_cons_self, hleft⟩
  have hends : dropEnds ((line :: left).map trimRight)
      = squash (dropEnds ((line :: rest).map trimRight)) := by
    unfold inked at hbody
    unfold dropEnds
    rw [List.map_cons, List.map_cons]
    -- the first line is never squashed, but it may be one that the ends lose
    by_cases hline : trimRight line = []
    · rw [hline, List.dropWhile_cons_of_pos rfl, List.dropWhile_cons_of_pos rfl,
        rdropWhile_dropWhile, hbody, dropWhile_squash, ← rdropWhile_dropWhile]
    · have hne : (trimRight line).isEmpty = false := by simpa using hline
      have hcons : ∀ ms : List (List Char), (trimRight line :: ms).rdropWhile List.isEmpty
          = trimRight line :: ms.rdropWhile List.isEmpty := rdropWhile_append_cons hne []
      rw [List.dropWhile_cons_of_neg (by simp [hne]), List.dropWhile_cons_of_neg (by simp [hne]),
        hcons, hcons, hbody, squash_cons_of_ne_nil hline]
  unfold tidyLines
  rw [tidy_eq_cut, hcs, ← hends, ← unlines_edges hleft', ← hshrink, ← hcs, unlines_lines]

end Offside.Markup
