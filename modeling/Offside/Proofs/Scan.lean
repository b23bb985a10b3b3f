/-
  Offside.Proofs.Scan
  ───────────────────
  What the lines of a source are, said without trimming the source first.

  `rows` is the plain reading: cut the source at its newlines, leave out what
  is blank, count the spaces in front.  `scan_rows` says that `Line.scan`
  finds these rows, although it trims the source as a whole before it cuts
  it.  The one trace of that trimming is that the first row counts as not
  indented.
-/
import Offside.Document
import Offside.Proofs.Text

namespace Offside

open Text

/-! ## §1. Rows. -/

/-- A line that is not blank, without where it stands. -/
structure Row where
  /-- How many spaces the line starts with. -/
  indent : Nat
  /-- The line without blanks at either end. -/
  text : List Char
  deriving Repr, DecidableEq

/-- The row that a piece of the source is, unless it is blank. -/
def row? (piece : List Char) : Option Row :=
  if trim piece = [] then none
  else some ⟨(piece.takeWhile (· == ' ')).length, trim piece⟩

/-- The first row moved to the margin. -/
def flush : List Row → List Row
  | [] => []
  | row :: rest => { row with indent := 0 } :: rest

/-- The lines of a source that are not blank, in order, the first one counted
as not indented. -/
def rows (source : List Char) : List Row := flush ((lines source).filterMap row?)

/-- A line as a row. -/
def Line.row (line : Line) : Row := ⟨line.indent, line.text.toList⟩

@[simp] theorem Line.row_indent (line : Line) : line.row.indent = line.indent := rfl

@[simp] theorem Line.row_text (line : Line) : line.row.text = line.text.toList := rfl

/-! ## §2. Trimming the source does not change its rows. -/

/-- The spaces in front of a text that is not blank all stand before a blank
that is put behind it. -/
theorem takeWhile_space_append {piece b : List Char} (h : trim piece ≠ []) :
    (piece ++ b).takeWhile (· == ' ') = piece.takeWhile (· == ' ') := by
  rw [List.takeWhile_append, if_neg]
  intro hlen
  have hall : ∀ c ∈ piece, (c == ' ') = true := by
    rw [← List.takeWhile_eq_self_iff]
    exact (List.takeWhile_prefix _).eq_of_length hlen
  refine h (trim_eq_nil_iff.mpr fun c hc => ?_)
  rw [eq_of_beq (hall c hc)]
  exact isBlank_space

theorem row?_concat_blank {c : Char} (hc : isBlank c = true) (piece : List Char) :
    row? (piece ++ [c]) = row? piece := by
  have htrim : trim (piece ++ [c]) = trim piece := trim_append_blank (by simpa using hc)
  unfold row?
  rw [htrim]
  split
  next => rfl
  next h => rw [takeWhile_space_append h]

/-- A character behind a text joins its last line or, if it is a newline,
starts an empty one. -/
theorem lines_concat (cs : List Char) (c : Char) :
    ∃ ls l, lines cs = ls ++ [l]
      ∧ lines (cs ++ [c]) = if c = '\n' then ls ++ [l, []] else ls ++ [l ++ [c]] := by
  -- from the front, since that is how lines are cut: the last line is also the
  -- first one exactly when there is no other
  induction cs with
  | nil =>
    refine ⟨[], [], rfl, ?_⟩
    by_cases hc : c = '\n'
    · rw [if_pos hc, hc]
      rfl
    · rw [if_neg hc]
      exact lines_cons_of_ne hc lines_nil
  | cons d cs ih =>
    obtain ⟨ls, l, h, h'⟩ := ih
    by_cases hd : d = '\n'
    · refine ⟨[] :: ls, l, ?_, ?_⟩
      · rw [hd, lines_newline_cons, h]
        rfl
      · rw [hd, List.cons_append, lines_newline_cons, h']
        split <;> rfl
    · cases ls with
      | nil =>
        refine ⟨[], d :: l, lines_cons_of_ne hd h, ?_⟩
        rw [List.cons_append]
        by_cases hc : c = '\n'
        · rw [if_pos hc] at h' ⊢
          exact lines_cons_of_ne hd h'
        · rw [if_neg hc] at h' ⊢
          exact lines_cons_of_ne hd h'
      | cons m ms =>
        refine ⟨(d :: m) :: ms, l, lines_cons_of_ne hd h, ?_⟩
        rw [List.cons_append]
        by_cases hc : c = '\n'
        · rw [if_pos hc] at h' ⊢
          exact lines_cons_of_ne hd h'
        · rw [if_neg hc] at h' ⊢
          exact lines_cons_of_ne hd h'

theorem rows_concat_blank {c : Char} (hc : isBlank c = true) (cs : List Char) :
    (lines (cs ++ [c])).filterMap row? = (lines cs).filterMap row? := by
  obtain ⟨ls, l, h, h'⟩ := lines_concat cs c
  have hnil : row? [] = none := rfl
  rw [h, h']
  split
  · simp [List.filterMap_cons, hnil]
  · simp [List.filterMap_cons, row?_concat_blank hc]

/-- Blanks behind a source make no row and change none. -/
theorem rows_append_blank {b : List Char} (hb : ∀ c ∈ b, isBlank c = true) (cs : List Char) :
    (lines (cs ++ b)).filterMap row? = (lines cs).filterMap row? := by
  induction b generalizing cs with
  | nil => rw [List.append_nil]
  | cons c b ih =>
    have hsplit : cs ++ c :: b = (cs ++ [c]) ++ b := by simp
    rw [hsplit, ih (fun d hd => hb d (List.mem_cons_of_mem _ hd)),
      rows_concat_blank (hb c List.mem_cons_self)]

/-- A blank in front of a source can move its first row, and nothing else. -/
theorem rows_blank_cons {c : Char} (hc : isBlank c = true) (cs : List Char) :
    rows (c :: cs) = rows cs := by
  unfold rows
  by_cases hn : c = '\n'
  · have hnil : row? [] = none := rfl
    rw [hn, lines_newline_cons, List.filterMap_cons_none hnil]
  · obtain ⟨l, ls, h⟩ := exists_lines_eq cs
    have htrim : trim (c :: l) = trim l := trim_blank_append (a := [c]) (by simpa using hc)
    rw [lines_cons_of_ne hn h, h]
    by_cases hl : trim l = []
    · have h1 : row? l = none := by simp [row?, hl]
      have h2 : row? (c :: l) = none := by simp [row?, htrim, hl]
      rw [List.filterMap_cons_none h1, List.filterMap_cons_none h2]
    · -- both make a row with the same text, and the first row is moved anyway
      simp [row?, htrim, hl, flush]

theorem rows_blank_append {a : List Char} (ha : ∀ c ∈ a, isBlank c = true) (cs : List Char) :
    rows (a ++ cs) = rows cs := by
  induction a with
  | nil => rfl
  | cons c a ih =>
    rw [List.cons_append, rows_blank_cons (ha c List.mem_cons_self)]
    exact ih fun d hd => ha d (List.mem_cons_of_mem _ hd)

theorem rows_trim (cs : List Char) : rows (trim cs) = rows cs := by
  -- first at the front, where rows may move, then at the end, where none does
  have hleft : rows (trimLeft cs) = rows cs := by
    conv_rhs => rw [← List.takeWhile_append_dropWhile (p := isBlank) (l := cs)]
    exact (rows_blank_append (fun c hc => List.mem_takeWhile_imp hc) _).symm
  obtain ⟨b, hb, hsplit⟩ := exists_blank_trimRight (trimLeft cs)
  rw [← hleft]
  conv_rhs => rw [hsplit]
  unfold rows
  rw [rows_append_blank hb]
  rfl

/-- A text that does not start with a blank has its first row at the margin. -/
theorem flush_rows {cs : List Char} (h : Stops isBlank cs) :
    flush ((lines cs).filterMap row?) = (lines cs).filterMap row? := by
  cases cs with
  | nil => rfl
  | cons c cs =>
    rw [stops_cons] at h
    -- the first line starts with `c`, so it makes a row and has no indentation
    have hn : c ≠ '\n' := by
      rintro rfl
      exact absurd h (by decide)
    have hs : (c == ' ') = false := by
      rw [beq_eq_false_iff_ne]
      rintro rfl
      exact absurd h (by decide)
    obtain ⟨l, ls, hl⟩ := exists_lines_eq cs
    have htrim : trim (c :: l) ≠ [] := by
      rw [Ne, trim_eq_nil_iff]
      intro hall
      have hc := hall c List.mem_cons_self
      rw [h] at hc
      exact absurd hc (by decide)
    rw [lines_cons_of_ne hn hl]
    simp [row?, htrim, hs, flush]

/-! ## §3. The scan. -/

theorem ofText?_eq_none_iff {text : List Char} : LineKind.ofText? text = none ↔ text = [] := by
  cases text <;> simp [LineKind.ofText?]

theorem drop_length_takeWhile {α : Type} (p : α → Bool) (cs : List α) :
    cs.drop (cs.takeWhile p).length = cs.dropWhile p := by
  have hsplit := List.takeWhile_append_dropWhile (p := p) (l := cs)
  calc cs.drop (cs.takeWhile p).length
      = (cs.takeWhile p ++ cs.dropWhile p).drop (cs.takeWhile p).length := by rw [hsplit]
    _ = cs.dropWhile p := List.drop_left

/-- The text of a piece, whichever blanks are left out first. -/
theorem trim_dropWhile_space (piece : List Char) :
    trim (piece.dropWhile (· == ' ')) = trim piece := by
  conv_rhs => rw [← List.takeWhile_append_dropWhile (p := (· == ' ')) (l := piece)]
  refine (trim_blank_append fun c hc => ?_).symm
  have hspace := List.mem_takeWhile_imp hc
  rw [eq_of_beq hspace]
  exact isBlank_space

/-- A line is a row, together with where it stands and of which kind it is. -/
theorem ofPiece?_row (piece : List Char) (number : Nat) :
    (Line.ofPiece? piece number).map Line.row = row? piece := by
  unfold Line.ofPiece? row?
  simp only [drop_length_takeWhile, trim_dropWhile_space]
  by_cases h : trim piece = []
  · rw [if_pos h, ofText?_eq_none_iff.mpr h]
    rfl
  · rw [if_neg h]
    obtain ⟨kind, hkind⟩ := Option.ne_none_iff_exists'.mp (fun h' => h (ofText?_eq_none_iff.mp h'))
    rw [hkind]
    simp [Line.row]

theorem filterMap_zipIdx_row (pieces : List (List Char)) (k : Nat) :
    ((pieces.zipIdx k).filterMap fun p => Line.ofPiece? p.1 p.2).map Line.row
      = pieces.filterMap row? := by
  induction pieces generalizing k with
  | nil => rfl
  | cons piece pieces ih =>
    have hrow := ofPiece?_row piece k
    rw [List.zipIdx_cons, List.filterMap_cons, List.filterMap_cons, ← hrow]
    cases Line.ofPiece? piece k with
    | none => exact ih (k + 1)
    | some line => simp [ih (k + 1)]

/-- **The scan finds the rows of the source.** -/
theorem scan_rows (source : String) :
    (Line.scan source).map Line.row = rows source.toList := by
  unfold Line.scan
  rw [filterMap_zipIdx_row, ← rows_trim]
  exact (flush_rows (stops_trim _)).symm

/-- The kind of a scanned line is that of its text. -/
theorem kind_of_mem_scan {source : String} {line : Line} (h : line ∈ Line.scan source) :
    LineKind.ofText? line.text.toList = some line.kind := by
  unfold Line.scan at h
  obtain ⟨⟨piece, number⟩, -, hpiece⟩ := List.mem_filterMap.mp h
  unfold Line.ofPiece? at hpiece
  obtain ⟨kind, hkind, rfl⟩ := Option.map_eq_some_iff.mp hpiece
  simpa using hkind

/-- The text of a scanned line is trimmed. -/
theorem isTrimmedLine_of_mem_scan {source : String} {line : Line} (h : line ∈ Line.scan source) :
    isTrimmedLine line.text.toList = true := by
  have hkind := kind_of_mem_scan h
  unfold Line.scan at h
  obtain ⟨⟨piece, number⟩, hmem, hpiece⟩ := List.mem_filterMap.mp h
  have hnewline : '\n' ∉ piece :=
    newline_not_mem_of_mem_lines (List.fst_mem_of_mem_zipIdx hmem)
  unfold Line.ofPiece? at hpiece
  obtain ⟨kind, -, rfl⟩ := Option.map_eq_some_iff.mp hpiece
  refine isTrimmedLine_iff.mpr ⟨?_, ?_, ?_⟩
  · intro hnil
    rw [hnil] at hkind
    exact absurd hkind (by simp [LineKind.ofText?])
  · rw [String.toList_ofList]
    exact trim_trim _
  · rw [String.toList_ofList]
    intro hc
    exact hnewline (List.drop_subset _ _ (trim_subset _ hc))

/-! ## §4. Sources that are read. -/

namespace Document

/-- A source may be read when it is not empty, not too large, and holds no
forbidden character. -/
theorem check_eq_ok_iff {source : String} :
    check source = .ok () ↔
      source ≠ "" ∧ source.utf8ByteSize ≤ maxSourceBytes
        ∧ source.toList.any isForbidden = false := by
  unfold check
  split
  next he => simp_all
  next he =>
    split
    next hs => simp [Nat.not_le.mpr hs]
    next hs =>
      split
      next hf => simp [hf]
      next hf => simp_all

/-- A page is a source that may be read and whose lines nest. -/
theorem parse_eq_ok_iff {source : String} {nodes : List Node} :
    parse source = .ok nodes ↔
      check source = .ok () ∧ forest 1 [] (Line.scan source) = .ok nodes := by
  unfold parse
  cases hc : check source with
  | error e => simp
  | ok u =>
    cases hf : forest 1 [] (Line.scan source) with
    | error fault => simp
    | ok ns => simp

end Document

end Offside
