/-
  Offside.Proofs.Numbering
  ────────────────────────
  Where the lines of a source stand.

  `numbered` is the plain reading of pieces as lines: every piece that is not
  blank makes a line, and pieces are counted from a given number on.
  `scan_eq_flushed` says that `Line.scan` finds these lines in the untrimmed
  source, blank pieces counted, and that trimming the source shows in one line
  only: the first one is moved to the margin.  So the lines of a source are
  found from its front, and a line does not depend on what follows it.
-/
import Offside.Proofs.Scan

namespace Offside

open Text

/-! ## §1. Lines from pieces. -/

/-- The lines that pieces make, the first piece having the number `k`. -/
def numbered (k : Nat) (pieces : List (List Char)) : List Line :=
  (pieces.zipIdx k).filterMap fun p => Line.ofPiece? p.1 p.2

/-- A line moved to the margin. -/
def Line.flush (line : Line) : Line := { line with indent := 0, column := 1 }

/-- Lines, the first of them moved to the margin. -/
def flushed : List Line → List Line
  | [] => []
  | line :: rest => line.flush :: rest

@[simp] theorem Line.flush_number (line : Line) : line.flush.number = line.number := rfl

@[simp] theorem numbered_nil (k : Nat) : numbered k [] = [] := rfl

theorem numbered_cons (k : Nat) (piece : List Char) (pieces : List (List Char)) :
    numbered k (piece :: pieces)
      = (Line.ofPiece? piece k).toList ++ numbered (k + 1) pieces := by
  unfold numbered
  rw [List.zipIdx_cons, List.filterMap_cons]
  cases Line.ofPiece? piece k with
  | none => rfl
  | some line => rfl

theorem numbered_append (k : Nat) (a b : List (List Char)) :
    numbered k (a ++ b) = numbered k a ++ numbered (k + a.length) b := by
  unfold numbered
  rw [List.zipIdx_append, List.filterMap_append]

/-- What is put behind lines does not move the first of them. -/
theorem flushed_append {a : List Line} (ha : a ≠ []) (b : List Line) :
    flushed (a ++ b) = flushed a ++ b := by
  cases a with
  | nil => exact absurd rfl ha
  | cons line a => rfl

/-! ## §2. One piece. -/

/-- The blanks in front of a piece are its spaces and what follows them. -/
theorem length_leading_blanks (piece : List Char) :
    (piece.takeWhile (· == ' ')).length
        + ((piece.dropWhile (· == ' ')).takeWhile isBlank).length
      = (piece.takeWhile isBlank).length := by
  have hspaces : ∀ c ∈ piece.takeWhile (· == ' '), isBlank c = true := by
    intro c hc
    have hspace := List.mem_takeWhile_imp hc
    rw [eq_of_beq hspace]
    exact isBlank_space
  conv_rhs => rw [← List.takeWhile_append_dropWhile (p := (· == ' ')) (l := piece),
    List.takeWhile_append_of_pos hspaces, List.length_append]

/-- **The line of a piece**: its text starts behind all the blanks in front. -/
theorem ofPiece?_eq (piece : List Char) (k : Nat) :
    Line.ofPiece? piece k
      = (LineKind.ofText? (trim piece)).map fun kind =>
          { kind, indent := (piece.takeWhile (· == ' ')).length,
            text := String.ofList (trim piece), number := k,
            column := (piece.takeWhile isBlank).length + 1 } := by
  unfold Line.ofPiece?
  simp only [drop_length_takeWhile, trim_dropWhile_space, length_leading_blanks]

theorem ofPiece?_eq_none_iff {piece : List Char} {k : Nat} :
    Line.ofPiece? piece k = none ↔ trim piece = [] := by
  rw [ofPiece?_eq, Option.map_eq_none_iff, ofText?_eq_none_iff]

theorem number_of_ofPiece? {piece : List Char} {k : Nat} {line : Line}
    (h : Line.ofPiece? piece k = some line) : line.number = k := by
  rw [ofPiece?_eq] at h
  obtain ⟨kind, -, rfl⟩ := Option.map_eq_some_iff.mp h
  rfl

/-- A blank behind a piece does not show. -/
theorem ofPiece?_concat_blank {c : Char} (hc : isBlank c = true) (piece : List Char) (k : Nat) :
    Line.ofPiece? (piece ++ [c]) k = Line.ofPiece? piece k := by
  have htrim : trim (piece ++ [c]) = trim piece := trim_append_blank (by simpa using hc)
  by_cases hblank : trim piece = []
  · rw [ofPiece?_eq_none_iff.mpr hblank, ofPiece?_eq_none_iff.mpr (htrim.trans hblank)]
  · -- the blanks in front end inside the piece
    have hstop : (piece ++ [c]).takeWhile isBlank = piece.takeWhile isBlank := by
      rw [List.takeWhile_append, if_neg]
      intro hlen
      have hself := (List.takeWhile_prefix isBlank).eq_of_length hlen
      exact hblank (trim_eq_nil_iff.mpr (List.takeWhile_eq_self_iff.mp hself))
    rw [ofPiece?_eq, ofPiece?_eq, htrim, hstop, takeWhile_space_append hblank]

/-- A blank in front of a piece moves the line, and does nothing else. -/
theorem ofPiece?_blank_cons {c : Char} (hc : isBlank c = true) (piece : List Char) (k : Nat) :
    (Line.ofPiece? (c :: piece) k).map Line.flush = (Line.ofPiece? piece k).map Line.flush := by
  have htrim : trim (c :: piece) = trim piece := trim_blank_append (a := [c]) (by simpa using hc)
  rw [ofPiece?_eq, ofPiece?_eq, htrim, Option.map_map, Option.map_map]
  rfl

/-- A piece that does not start with a blank is at the margin. -/
theorem ofPiece?_flush {c : Char} (hc : isBlank c = false) (piece : List Char) (k : Nat) :
    (Line.ofPiece? (c :: piece) k).map Line.flush = Line.ofPiece? (c :: piece) k := by
  have hspace : (c == ' ') = false := by
    rw [beq_eq_false_iff_ne]
    rintro rfl
    exact absurd hc (by decide)
  rw [ofPiece?_eq, Option.map_map]
  simp only [List.takeWhile_cons, hc, hspace, Bool.false_eq_true, if_false, List.length_nil]
  rfl

/-- Lines have the numbers of their pieces. -/
theorem number_of_mem_numbered {k : Nat} {pieces : List (List Char)} {line : Line}
    (h : line ∈ numbered k pieces) : k ≤ line.number ∧ line.number < k + pieces.length := by
  obtain ⟨⟨piece, i⟩, hmem, hline⟩ := List.mem_filterMap.mp h
  obtain ⟨hlow, hhigh, -⟩ := List.mem_zipIdx hmem
  rw [number_of_ofPiece? hline]
  exact ⟨hlow, hhigh⟩

theorem exists_number_of_mem_flushed {ls : List Line} {line : Line} (h : line ∈ flushed ls) :
    ∃ l ∈ ls, l.number = line.number := by
  cases ls with
  | nil => exact absurd h (List.not_mem_nil)
  | cons l ls =>
    rcases List.mem_cons.mp h with rfl | h
    · exact ⟨l, List.mem_cons_self, rfl⟩
    · exact ⟨line, List.mem_cons_of_mem _ h, rfl⟩

/-! ## §3. Blanks around a source. -/

theorem flushed_toList_append (line? : Option Line) (rest : List Line) :
    flushed (line?.toList ++ rest)
      = (line?.map Line.flush).elim (flushed rest) (· :: rest) := by
  cases line? with
  | none => rfl
  | some line => rfl

/-- Blanks behind a source make no line and change none. -/
theorem numbered_append_blank {b : List Char} (hb : ∀ c ∈ b, isBlank c = true) (cs : List Char)
    (k : Nat) : numbered k (lines (cs ++ b)) = numbered k (lines cs) := by
  induction b generalizing cs with
  | nil => rw [List.append_nil]
  | cons c b ih =>
    obtain ⟨hc, hb⟩ := List.forall_mem_cons.mp hb
    rw [List.append_cons, ih hb]
    obtain ⟨ls, l, h, h'⟩ := lines_concat cs c
    rw [h, h']
    split
    · -- a newline adds an empty piece
      have hempty : ls ++ [l, []] = (ls ++ [l]) ++ [[]] := by simp
      rw [hempty, numbered_append k (ls ++ [l]), numbered_cons, ofPiece?_eq_none_iff.mpr rfl]
      exact List.append_nil _
    · rw [numbered_append, numbered_append, numbered_cons, numbered_cons,
        ofPiece?_concat_blank hc]

/-- Blanks in front of a source count as many pieces as they hold newlines,
and can move the first line. -/
theorem numbered_blank_append {a : List Char} (ha : ∀ c ∈ a, isBlank c = true) (cs : List Char)
    (k : Nat) :
    flushed (numbered k (lines (a ++ cs)))
      = flushed (numbered (k + a.count '\n') (lines cs)) := by
  induction a generalizing k with
  | nil => rfl
  | cons c a ih =>
    obtain ⟨hc, ha⟩ := List.forall_mem_cons.mp ha
    rw [List.cons_append]
    by_cases hn : c = '\n'
    · rw [hn, lines_newline_cons, numbered_cons, ofPiece?_eq_none_iff.mpr rfl, List.count_cons_self]
      show flushed (numbered (k + 1) (lines (a ++ cs))) = _
      rw [ih ha (k + 1)]
      congr 2
      omega
    · obtain ⟨l, ls, h⟩ := exists_lines_eq (a ++ cs)
      have hmoved : flushed (numbered k (lines (c :: (a ++ cs))))
          = flushed (numbered k (lines (a ++ cs))) := by
        rw [lines_cons_of_ne hn h, h, numbered_cons, numbered_cons, flushed_toList_append,
          flushed_toList_append, ofPiece?_blank_cons hc]
      rw [hmoved, ih ha k, List.count_cons_of_ne hn]

/-- A text that does not start with a blank has its first line at the
margin. -/
theorem flushed_numbered {cs : List Char} (h : Stops isBlank cs) (k : Nat) :
    flushed (numbered k (lines cs)) = numbered k (lines cs) := by
  cases cs with
  | nil => rfl
  | cons c cs =>
    rw [stops_cons] at h
    have hn : c ≠ '\n' := by
      rintro rfl
      exact absurd h (by decide)
    obtain ⟨l, ls, hl⟩ := exists_lines_eq cs
    have hflush := ofPiece?_flush h l k
    rw [lines_cons_of_ne hn hl, numbered_cons]
    cases hline : Line.ofPiece? (c :: l) k with
    | none =>
      -- a piece that starts with `c` is not blank
      have hblank := ofPiece?_eq_none_iff.mp hline
      rw [trim_eq_nil_iff] at hblank
      rw [hblank c List.mem_cons_self] at h
      exact absurd h (by decide)
    | some line =>
      rw [hline, Option.map_some, Option.some.injEq] at hflush
      show line.flush :: numbered (k + 1) ls = line :: numbered (k + 1) ls
      rw [hflush]

/-- **The lines of a source are those of its pieces**, counted from one, the
first of them moved to the margin. -/
theorem scan_eq_flushed (source : String) :
    Line.scan source = flushed (numbered 1 (lines source.toList)) := by
  have hfront : ∀ c ∈ source.toList.takeWhile isBlank, isBlank c = true := fun c hc =>
    List.mem_takeWhile_imp hc
  obtain ⟨b, hb, hsplit⟩ := exists_blank_trimRight (trimLeft source.toList)
  have hstart : firstNumber source.toList = 1 + (source.toList.takeWhile isBlank).count '\n' :=
    Nat.add_comm _ _
  calc Line.scan source
      = numbered (firstNumber source.toList) (lines (trim source.toList)) := rfl
    _ = flushed (numbered (firstNumber source.toList) (lines (trim source.toList))) :=
        (flushed_numbered (stops_trim _) _).symm
    _ = flushed (numbered (firstNumber source.toList) (lines (trimLeft source.toList))) := by
        conv_rhs => rw [hsplit, numbered_append_blank hb]
        rfl
    _ = flushed (numbered 1 (lines (source.toList.takeWhile isBlank ++ trimLeft source.toList))) := by
        rw [numbered_blank_append hfront, hstart]
    _ = flushed (numbered 1 (lines source.toList)) := by
        unfold trimLeft
        rw [List.takeWhile_append_dropWhile]

end Offside
