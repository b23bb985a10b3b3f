/-
  Offside.Proofs.Positions
  ────────────────────────
  **EVERY REPORTED PLACE IS A PLACE OF THE SOURCE.**

  A source is trimmed before it is cut, so the places of its lines have to be
  made up for.  `exists_standsOn` says how far that goes: the number of a line
  is always that of its piece in the untrimmed source, and its column is where
  its text starts, except for the first line, whose column is one whatever
  blanks stand in front of it (`indented_first_line_is_off`).

  A fault is an offset in the text of one line (`exists_place_of_fault`).  So it
  lies on a line that is not blank and at most one character behind its last
  one, and neither the snippet nor the diagnostic of a fault can leave the
  document.
-/
import Offside.Diagnostics
import Offside.Proofs.FirstFault

namespace Offside.Positions

open Text Document

/-! ## §1. Characters and pieces of a source. -/

/-- The character at a position of a source. -/
def charAt? (source : String) (p : Position) : Option Char :=
  if 1 ≤ p.line ∧ 1 ≤ p.column then
    ((lines source.toList)[(p.line - 1).toNat]?).bind fun piece => piece[(p.column - 1).toNat]?
  else none

/-- The pieces of a source that are not blank, in order, with their numbers. -/
def inkedPieces (source : String) : List (List Char × Nat) :=
  ((lines source.toList).zipIdx 1).filter fun p => !(trim p.1).isEmpty

/-- The column at which the text of a piece starts. -/
def textColumn (piece : List Char) : Nat := (piece.takeWhile isBlank).length + 1

/-- A piece is its text between blanks. -/
theorem exists_piece_eq (piece : List Char) :
    ∃ b, (∀ c ∈ b, isBlank c = true) ∧ piece = piece.takeWhile isBlank ++ (trim piece ++ b) := by
  obtain ⟨b, hb, hsplit⟩ := exists_blank_trimRight (trimLeft piece)
  refine ⟨b, hb, ?_⟩
  conv_lhs => rw [← List.takeWhile_append_dropWhile (p := isBlank) (l := piece)]
  rw [← trimLeft, hsplit]
  rfl

/-- A piece that is not blank ends with its text, once the blanks behind it are
gone. -/
theorem length_trimRight {piece : List Char} (h : trim piece ≠ []) :
    (trimRight piece).length = (piece.takeWhile isBlank).length + (trim piece).length := by
  obtain ⟨b, hb, hpiece⟩ := exists_piece_eq piece
  have hstop : Stops isBlank (piece.takeWhile isBlank ++ trim piece).reverse := by
    rw [List.reverse_append]
    have hlast := stops_reverse_trim piece
    cases hrev : (trim piece).reverse with
    | nil => exact absurd (List.reverse_eq_nil_iff.mp hrev) h
    | cons c cs =>
      rw [hrev, stops_cons] at hlast
      exact stops_cons.mpr hlast
  have hright : trimRight piece = piece.takeWhile isBlank ++ trim piece := by
    conv_lhs => rw [hpiece, ← List.append_assoc, trimRight_append_blank hb]
    exact trimRight_of_stops hstop
  rw [hright, List.length_append]

theorem length_trimRight_le (piece : List Char) : (trimRight piece).length ≤ piece.length := by
  obtain ⟨b, -, hpiece⟩ := exists_blank_trimRight piece
  calc (trimRight piece).length
      ≤ (trimRight piece ++ b).length := by simp
    _ = piece.length := by rw [← hpiece]

/-! ## §2. Where the lines of a source stand. -/

/-- A line is that of a piece of the source: it has the number and the text of
the piece, and the piece is not blank. -/
structure StandsOn (source : String) (line : Line) (piece : List Char) : Prop where
  positive : 1 ≤ line.number
  found : (lines source.toList)[line.number - 1]? = some piece
  text : line.text.toList = trim piece
  inked : trim piece ≠ []

/-- The lines of pieces, without their columns. -/
theorem map_numbered (k : Nat) (pieces : List (List Char)) :
    (numbered k pieces).map (fun l => (l.text.toList, l.number))
      = ((pieces.zipIdx k).filter fun p => !(trim p.1).isEmpty).map fun p => (trim p.1, p.2) := by
  induction pieces generalizing k with
  | nil => rfl
  | cons piece pieces ih =>
    rw [numbered_cons, List.zipIdx_cons, List.map_append, ih (k + 1), ofPiece?_eq]
    by_cases hblank : trim piece = []
    · rw [hblank, List.filter_cons_of_neg (by simp [hblank])]
      rfl
    · obtain ⟨kind, hkind⟩ :=
        Option.ne_none_iff_exists'.mp fun h => hblank (ofText?_eq_none_iff.mp h)
      rw [hkind, List.filter_cons_of_pos (by simp [hblank])]
      simp

theorem map_flushed (ls : List Line) :
    (flushed ls).map (fun l => (l.text.toList, l.number))
      = ls.map fun l => (l.text.toList, l.number) := by
  cases ls <;> rfl

/-- A line of pieces stands on one of them, behind its blanks. -/
theorem exists_piece_of_mem_numbered {source : String} {line : Line}
    (h : line ∈ numbered 1 (lines source.toList)) :
    ∃ piece, StandsOn source line piece ∧ line.column = textColumn piece := by
  obtain ⟨⟨piece, k⟩, hmem, hline⟩ := List.mem_filterMap.mp h
  obtain ⟨hlow, -, hpiece⟩ := List.mem_zipIdx hmem
  have hinked : trim piece ≠ [] := by
    intro hblank
    rw [ofPiece?_eq_none_iff.mpr hblank] at hline
    exact absurd hline (by simp)
  rw [ofPiece?_eq] at hline
  obtain ⟨kind, -, rfl⟩ := Option.map_eq_some_iff.mp hline
  refine ⟨piece, ⟨hlow, ?_, String.toList_ofList, hinked⟩, rfl⟩
  show (lines source.toList)[k - 1]? = some piece
  rw [hpiece]
  exact List.getElem?_eq_getElem _

/-- **Where a line stands**: on its piece of the untrimmed source, and at the
column of its text unless it is the first. -/
theorem exists_standsOn {source : String} {i : Nat} {line : Line}
    (h : (Line.scan source)[i]? = some line) :
    ∃ piece, StandsOn source line piece
      ∧ line.column = if i = 0 then 1 else textColumn piece := by
  rw [scan_eq_flushed] at h
  cases hlines : numbered 1 (lines source.toList) with
  | nil =>
    rw [hlines] at h
    exact absurd h (by simp [flushed])
  | cons first rest =>
    rw [hlines] at h
    cases i with
    | zero =>
      -- the first line is moved to the margin, and keeps its number and its text
      have hmem : first ∈ numbered 1 (lines source.toList) := by
        rw [hlines]
        exact List.mem_cons_self
      obtain ⟨piece, hstands, -⟩ := exists_piece_of_mem_numbered hmem
      obtain rfl : first.flush = line := by simpa [flushed] using h
      exact ⟨piece, ⟨hstands.positive, hstands.found, hstands.text, hstands.inked⟩, rfl⟩
    | succ i =>
      have hmem : line ∈ numbered 1 (lines source.toList) := by
        rw [hlines]
        exact List.mem_cons_of_mem _ (List.mem_of_getElem? h)
      obtain ⟨piece, hstands, hcolumn⟩ := exists_piece_of_mem_numbered hmem
      exact ⟨piece, hstands, hcolumn⟩

theorem drop_textColumn (piece : List Char) :
    trim piece <+: piece.drop (textColumn piece - 1) := by
  obtain ⟨b, -, hpiece⟩ := exists_piece_eq piece
  refine ⟨b, ?_⟩
  calc trim piece ++ b
      = (piece.takeWhile isBlank ++ (trim piece ++ b)).drop (piece.takeWhile isBlank).length :=
        List.drop_left.symm
    _ = piece.drop (textColumn piece - 1) := by
        rw [← hpiece]
        rfl

/-- A position on a line is that of a character of its text, if the column is
right. -/
theorem charAt?_position {source : String} {line : Line} {piece : List Char}
    (h : StandsOn source line piece) (hcolumn : line.column = textColumn piece) {o : Nat}
    (ho : o < line.text.toList.length) :
    charAt? source (line.position o) = line.text.toList[o]? := by
  have hpositive := h.positive
  have hline : ((line.number : Int) - 1).toNat = line.number - 1 := by omega
  have hplace : ((line.column : Int) + (o : Int) - 1).toNat = line.column - 1 + o := by
    rw [hcolumn]
    unfold textColumn
    omega
  have hinside : 1 ≤ (line.number : Int) ∧ 1 ≤ (line.column : Int) + (o : Int) := by
    rw [hcolumn]
    unfold textColumn
    omega
  obtain ⟨b, hb⟩ := drop_textColumn piece
  calc charAt? source (line.position o)
      = ((lines source.toList)[((line.number : Int) - 1).toNat]?).bind
          fun piece => piece[((line.column : Int) + (o : Int) - 1).toNat]? := if_pos hinside
    _ = piece[line.column - 1 + o]? := by rw [hline, hplace, h.found, Option.bind_some]
    _ = (piece.drop (textColumn piece - 1))[o]? := by rw [hcolumn, List.getElem?_drop]
    _ = line.text.toList[o]? := by rw [← hb, ← h.text, List.getElem?_append_left ho]

/-! ## §3. Where a fault stands. -/

theorem position_of_headRole_error {line : Line} {head : Head} {fault : Fault}
    (h : headRole line head = .error fault) :
    fault.position = line.position head.contentOffset := by
  unfold headRole at h
  split at h
  next =>
    split at h
    next => exact absurd h (by simp)
    next =>
      injection h with h
      rw [← h]
  next =>
    split at h
    all_goals exact absurd h (by simp)

/-- The head reader stops inside the text, or at its end. -/
theorem offset_of_read_error {text : List Char} {fault : HeadFault}
    (h : Head.read text = .error fault) : fault.offset ≤ text.length := by
  unfold Head.read at h
  split at h
  next =>
    injection h with h
    rw [← h]
    exact Nat.sub_le _ _
  next => exact absurd h (by simp)

theorem contentOffset_of_read {text : List Char} {head : Head} (h : Head.read text = .ok head) :
    head.contentOffset ≤ text.length := by
  unfold Head.read at h
  split at h
  next => exact absurd h (by simp)
  next =>
    injection h with h
    rw [← h]
    exact Nat.sub_le _ _

/-- What is wrong with a line is at an offset in its text. -/
theorem position_of_role_error {depth : Nat} {line : Line} {fault : Fault}
    (h : role depth line = .error fault) :
    ∃ o ≤ line.text.toList.length, fault.position = line.position o := by
  unfold role at h
  split at h
  next =>
    split at h
    next =>
      injection h with h
      exact ⟨0, Nat.zero_le _, by rw [← h]⟩
    next => exact absurd h (by simp)
  next => exact absurd h (by simp)
  next =>
    unfold tagRole at h
    split at h
    next =>
      injection h with h
      exact ⟨0, Nat.zero_le _, by rw [← h]⟩
    next =>
      split at h
      next stop hread =>
        injection h with h
        exact ⟨stop.offset, offset_of_read_error hread, by rw [← h]⟩
      next head hread =>
        exact ⟨head.contentOffset, contentOffset_of_read hread, position_of_headRole_error h⟩
  next => exact absurd h (by simp)

/-- A fault is that of one of the lines, at whatever depth that line was read. -/
theorem exists_role_error {depth : Nat} {done : List Node} {rest : List Line} {fault : Fault}
    (h : forest depth done rest = .error fault) :
    ∃ line ∈ rest, ∃ d, role d line = .error fault := by
  fun_induction forest depth done rest with
  | case1 depth done => exact absurd h (by simp)
  | case2 depth done line rest fault' hrole =>
    injection h with h
    exact ⟨line, by simp, depth, by rw [hrole, h]⟩
  | case3 depth done line rest node hrole ih =>
    obtain ⟨bad, hmem, hbad⟩ := ih h
    exact ⟨bad, by simp [hmem], hbad⟩
  | case4 depth done line rest hrole ih =>
    obtain ⟨bad, hmem, hbad⟩ := ih h
    exact ⟨bad, beyond_subset line rest hmem, hbad⟩
  | case5 depth done line rest tag hrole block =>
    rename_i children ih
    obtain ⟨bad, hmem, hbad⟩ := ih h
    exact ⟨bad, beyond_subset line rest hmem, hbad⟩
  | case6 depth done line rest tag front hrole fault' hinner ih =>
    obtain ⟨bad, hmem, hbad⟩ := ih (hinner.trans h)
    exact ⟨bad, below_subset line rest hmem, hbad⟩
  | case7 depth done line rest tag front hrole inner hinner ih₁ ih₂ =>
    obtain ⟨bad, hmem, hbad⟩ := ih₂ h
    exact ⟨bad, beyond_subset line rest hmem, hbad⟩

/-- **A fault is an offset in the text of a line.** -/
theorem exists_place_of_fault {source : String} {fault : Fault}
    (h : parse source = .error (.malformed fault source)) :
    ∃ (i : Nat) (line : Line) (o : Nat), (Line.scan source)[i]? = some line
      ∧ o ≤ line.text.toList.length ∧ fault.position = line.position o := by
  obtain ⟨-, hforest, -⟩ := parse_eq_malformed_iff.mp h
  obtain ⟨line, hmem, depth, hrole⟩ := exists_role_error hforest
  obtain ⟨i, hi⟩ := List.getElem?_of_mem hmem
  obtain ⟨o, ho, hposition⟩ := position_of_role_error hrole
  exact ⟨i, line, o, hi, ho, hposition⟩

/-! ## §4. Places in the source as it was written. -/

/-- **Lines stand where they were written.**  There is a line for every piece of the
source that is not blank, in order, with the number and the trimmed text of that
piece.  Its column is where that text starts, so that every position on the line
is that of a character of its text; only the first line is at column one whatever
blanks stand in front of it.  And every fault is a position on one of the lines. -/
theorem scan_stands_where_written (source : String) :
    (Line.scan source).map (fun l => (l.text.toList, l.number))
        = (inkedPieces source).map (fun p => (trim p.1, p.2))
      ∧ (∀ (i : Nat) (line : Line), (Line.scan source)[i]? = some line →
          ∃ piece, StandsOn source line piece
            ∧ line.column = (if i = 0 then 1 else textColumn piece)
            ∧ (0 < i ∨ Stops isBlank piece →
                line.text.toList <+: piece.drop (line.column - 1)
                  ∧ ∀ o < line.text.toList.length,
                      charAt? source (line.position o) = line.text.toList[o]?))
      ∧ ∀ fault, parse source = .error (.malformed fault source) →
          ∃ (i : Nat) (line : Line) (o : Nat), (Line.scan source)[i]? = some line
            ∧ o ≤ line.text.toList.length ∧ fault.position = line.position o := by
  refine ⟨?_, ?_, fun fault h => exists_place_of_fault h⟩
  · rw [scan_eq_flushed, map_flushed, map_numbered]
    rfl
  · intro i line hline
    obtain ⟨piece, hstands, hcolumn⟩ := exists_standsOn hline
    refine ⟨piece, hstands, hcolumn, fun hplain => ?_⟩
    have htext : line.column = textColumn piece := by
      rw [hcolumn]
      split
      next hfirst =>
        -- the first line starts without a blank, so its text is at the margin
        have hstop := hplain.resolve_left (by omega)
        unfold textColumn
        rw [takeWhile_of_stops hstop]
        rfl
      next => rfl
    refine ⟨?_, fun o ho => charAt?_position hstands htext ho⟩
    rw [htext, hstands.text]
    exact drop_textColumn piece

/-- Blank lines in front, a tab behind a space, and a class without a name on the
last line. -/
def deepSource : String := "\n\np\n\r\n \t b."

/-- The last line of that source. -/
def deepLine : Line := ⟨.tag, 1, "b.", 5, 4⟩

theorem scan_stands_where_written_deep :
    (Line.scan deepSource)[1]? = some deepLine
      ∧ charAt? deepSource (deepLine.position 1) = some '.'
      ∧ ∃ (i : Nat) (line : Line) (o : Nat), (Line.scan deepSource)[i]? = some line
          ∧ o ≤ line.text.toList.length ∧ ⟨5, 6⟩ = line.position o := by
  have hline : (Line.scan deepSource)[1]? = some deepLine := by decide +kernel
  have hparse : parse deepSource
      = .error (.malformed ⟨.classNameMissing, ⟨5, 6⟩⟩ deepSource) := by
    rw [parse_eq_malformed_iff, check_eq_ok_iff]
    exact ⟨⟨by decide, by decide, by rfl⟩, by decide +kernel, rfl⟩
  obtain ⟨-, hstands, hfault⟩ := scan_stands_where_written deepSource
  obtain ⟨piece, -, -, hchars⟩ := hstands 1 deepLine hline
  exact ⟨hline, (hchars (.inl (by decide))).2 1 (by decide), hfault _ hparse⟩

/-- Two blanks in front of the first line put it two columns off: its first position
is that of a blank, and a class name missed behind its text is missed in front of
it. -/
theorem indented_first_line_is_off :
    (Line.scan "  p.")[0]? = some ⟨.tag, 0, "p.", 1, 1⟩
      ∧ charAt? "  p." ((⟨.tag, 0, "p.", 1, 1⟩ : Line).position 0) = some ' '
      ∧ parse "  p." = .error (.malformed ⟨.classNameMissing, ⟨1, 3⟩⟩ "  p.")
      ∧ charAt? "  p." ⟨1, 3⟩ = some 'p' := by
  refine ⟨by decide +kernel, by decide +kernel, ?_, by decide +kernel⟩
  rw [parse_eq_malformed_iff, check_eq_ok_iff]
  exact ⟨⟨by decide, by decide, by rfl⟩, by decide +kernel, rfl⟩

/-! ## §5. Faults lie inside the document. -/

/-- A position is on a piece of the source that is not blank, and at most one
character behind the last one of it that is not blank. -/
structure Inside (source : String) (p : Position) (piece : List Char) : Prop where
  top : 1 ≤ p.line
  found : (lines source.toList)[(p.line - 1).toNat]? = some piece
  inked : trim piece ≠ []
  left : 1 ≤ p.column
  right : p.column ≤ (trimRight piece).length + 1

/-- A position on a line is inside, up to the end of its text. -/
theorem StandsOn.inside {source : String} {line : Line} {piece : List Char}
    (h : StandsOn source line piece)
    (hcolumn : 1 ≤ line.column ∧ line.column ≤ textColumn piece) {o : Nat}
    (ho : o ≤ line.text.toList.length) : Inside source (line.position o) piece := by
  have hpositive := h.positive
  have hright := length_trimRight h.inked
  rw [h.text] at ho
  unfold textColumn at hcolumn
  refine ⟨?_, ?_, h.inked, ?_, ?_⟩
  · show 1 ≤ (line.number : Int)
    omega
  · show (lines source.toList)[((line.number : Int) - 1).toNat]? = some piece
    rw [show ((line.number : Int) - 1).toNat = line.number - 1 by omega]
    exact h.found
  · show 1 ≤ (line.column : Int) + (o : Int)
    omega
  · show (line.column : Int) + (o : Int) ≤ (trimRight piece).length + 1
    omega

/-- **A fault is inside the document.** -/
theorem inside_of_fault {source : String} {fault : Fault}
    (h : parse source = .error (.malformed fault source)) :
    ∃ piece, Inside source fault.position piece := by
  obtain ⟨i, line, o, hline, ho, hposition⟩ := exists_place_of_fault h
  obtain ⟨piece, hstands, hcolumn⟩ := exists_standsOn hline
  refine ⟨piece, ?_⟩
  rw [hposition]
  apply hstands.inside _ ho
  rw [hcolumn]
  unfold textColumn
  split <;> omega

/-! ## §6. The snippet of a fault. -/

/-- The last two lines of a snippet show a piece without the carriage returns at its
end, and below it a caret as far from the start of what is shown as the column
says. -/
def Shows (snippet : List Char) (p : Position) (piece : List Char) : Prop :=
  ∃ above shown under : List Char, ∃ k : Nat,
    lines snippet
        = lines above ++ [(toString p.line ++ " | ").toList ++ shown, under ++ ['^']]
      ∧ piece = shown ++ List.replicate k '\r'
      ∧ shown.getLast? ≠ some '\r'
      ∧ '^' ∉ under
      ∧ (under.length : Int) = (toString p.line ++ " | ").length + (p.column - 1)

/-- A piece without the carriage returns at its end. -/
theorem exists_carriages (piece : List Char) :
    ∃ k, piece = (piece.reverse.dropWhile (· == '\r')).reverse ++ List.replicate k '\r' := by
  refine ⟨(piece.reverse.takeWhile (· == '\r')).length, ?_⟩
  have hrun : piece.reverse.takeWhile (· == '\r')
      = List.replicate (piece.reverse.takeWhile (· == '\r')).length '\r' := by
    apply List.eq_replicate_of_mem
    intro c hc
    simpa using List.mem_takeWhile_imp hc
  rw [← List.reverse_replicate, ← hrun, ← List.reverse_append,
    List.takeWhile_append_dropWhile, List.reverse_reverse]

theorem getLast?_shown (piece : List Char) :
    (piece.reverse.dropWhile (· == '\r')).reverse.getLast? ≠ some '\r' := by
  rw [List.getLast?_reverse]
  intro hhead
  have hstop := List.head?_dropWhile_not (· == '\r') piece.reverse
  rw [hhead] at hstop
  exact absurd hstop (by simp)

/-- What a snippet says above the line that it shows. -/
def snippetTop (r : Report) (file : String) : String :=
  let gutter := spaces ((toString r.position.line).length + 1)
  "error: " ++ r.message ++ "\n" ++ gutter ++ "--> " ++ file ++ ":" ++ toString r.position.line
    ++ ":" ++ toString r.position.column ++ "\n" ++ gutter ++ "|"

/-- What a snippet puts in front of its caret. -/
def caretLead (p : Position) : List Char :=
  List.replicate ((toString p.line).length + 1) ' ' ++ '|' :: ' '
    :: List.replicate (p.column - 1).toNat ' '

theorem snippet_eq (r : Report) (file : String) :
    (r.snippet file).toList
      = (snippetTop r file).toList ++ '\n' :: (((toString r.position.line ++ " | ").toList
          ++ r.shownLine.toList) ++ '\n' :: (caretLead r.position ++ ['^'])) := by
  unfold Report.snippet snippetTop caretLead spaces
  simp [toString]

/-- A number from one on is written without a newline. -/
theorem newline_not_mem_number {n : Int} (h : 1 ≤ n) : '\n' ∉ (toString n ++ " | ").toList := by
  rw [Int.toString_eq_repr, Int.repr_eq_if, if_pos (by omega), String.toList_append,
    Nat.toList_repr, List.mem_append]
  intro hmem
  cases hmem with
  | inl hdigit => exact absurd (Nat.isDigit_of_mem_toDigits (by decide) (by decide) hdigit) (by decide)
  | inr hbar => exact absurd hbar (by decide)

/-- **The snippet points at its position**, whatever the file is called and however
many digits the number of the line has. -/
theorem snippet_shows {r : Report} {piece : List Char} (h : Inside r.source r.position piece)
    (file : String) : Shows (r.snippet file).toList r.position piece := by
  have htop := h.top
  have hleft := h.left
  obtain ⟨k, hk⟩ := exists_carriages piece
  have hshown : r.shownLine.toList = (piece.reverse.dropWhile (· == '\r')).reverse := by
    unfold Report.shownLine
    rw [if_neg (by omega), h.found]
    exact String.toList_ofList
  -- the shown line and the caret are lines of their own, so `lines` gives them back
  have hclean : '\n' ∉ r.shownLine.toList := by
    intro hmem
    refine newline_not_mem_of_mem_lines (List.mem_of_getElem? h.found) ?_
    rw [hk, ← hshown]
    exact List.mem_append_left _ hmem
  have hline : '\n' ∉ (toString r.position.line ++ " | ").toList ++ r.shownLine.toList := by
    rw [List.mem_append]
    exact not_or.mpr ⟨newline_not_mem_number htop, hclean⟩
  have hcaret : '\n' ∉ caretLead r.position ++ ['^'] := by simp [caretLead]
  refine ⟨(snippetTop r file).toList, r.shownLine.toList, caretLead r.position, k, ?_, ?_, ?_,
    by simp [caretLead], ?_⟩
  · rw [snippet_eq, lines_append_newline, lines_append_newline, lines_of_not_mem hline,
      lines_of_not_mem hcaret]
    rfl
  · rw [hshown]
    exact hk
  · rw [hshown]
    exact getLast?_shown piece
  · have hbar : (" | " : String).length = 3 := by decide
    simp only [caretLead, List.length_append, List.length_cons, List.length_replicate,
      String.length_append, hbar]
    omega

theorem length_le_of_mem_lines {cs l : List Char} (h : l ∈ lines cs) : l.length ≤ cs.length := by
  induction cs generalizing l with
  | nil =>
    rw [lines_nil, List.mem_singleton] at h
    rw [h]
  | cons c cs ih =>
    rw [List.length_cons]
    obtain ⟨m, ms, hm⟩ := exists_lines_eq cs
    by_cases hc : c = '\n'
    · rw [hc, lines_newline_cons, List.mem_cons] at h
      cases h with
      | inl hnil => simp [hnil]
      | inr hmem => exact Nat.le_succ_of_le (ih hmem)
    · rw [lines_cons_of_ne hc hm, List.mem_cons] at h
      rw [hm] at ih
      cases h with
      | inl hfirst =>
        rw [hfirst, List.length_cons]
        exact Nat.succ_le_succ (ih List.mem_cons_self)
      | inr hmem => exact Nat.le_succ_of_le (ih (List.mem_cons_of_mem _ hmem))

theorem length_le_utf8Len (cs : List Char) : cs.length ≤ String.utf8Len cs := by
  induction cs with
  | nil => exact Nat.le_refl 0
  | cons c cs ih =>
    have hpos := c.utf8Size_pos
    rw [String.utf8Len_cons, List.length_cons]
    omega

/-- The caret of a fault is never too far to the right, because the source has a size
limit: where there is room for a source, there is room for the spaces. -/
theorem overflow?_of_fault {source : String} {fault : Fault}
    (h : parse source = .error (.malformed fault source)) {room : Room}
    (hroom : maxSourceBytes ≤ room.spaces) : (fault.report source).overflow? room = none := by
  obtain ⟨hcheck, -, -⟩ := parse_eq_malformed_iff.mp h
  obtain ⟨-, hsize, -⟩ := check_eq_ok_iff.mp hcheck
  obtain ⟨piece, hinside⟩ := inside_of_fault h
  have hleft := hinside.left
  have hright := hinside.right
  have hpiece := length_le_of_mem_lines (List.mem_of_getElem? hinside.found)
  have hchars : source.toList.length ≤ source.utf8ByteSize := by
    conv_rhs => rw [← String.ofList_toList (s := source), String.utf8ByteSize_ofList]
    exact length_le_utf8Len source.toList
  have htrim := length_trimRight_le piece
  have hwidth : fault.position.column - 1 ≤ (maxSourceBytes : Int) := by omega
  have hlength : (maxSourceBytes : Int) < maxLength := by decide
  unfold Report.overflow? Fault.report tooWide?
  rw [if_neg, if_neg]
  · show ¬ (room.spaces : Int) < fault.position.column - 1
    omega
  · simp only [Bool.or_eq_true, decide_eq_true_eq]
    omega

/-! ## §7. Diagnostics. -/

/-- A place is on a line of the document, and at most behind its last character. -/
def Within (source : String) (place : Place) : Prop :=
  ∃ piece, 0 ≤ place.line ∧ (lines source.toList)[place.line.toNat]? = some piece
    ∧ 0 ≤ place.character ∧ place.character ≤ piece.length

theorem Inside.within {source : String} {p : Position} {piece : List Char}
    (h : Inside source p piece) : Within source ⟨p.line - 1, p.column - 1⟩ := by
  have htop := h.top
  have hleft := h.left
  have hright := h.right
  have hlength := length_trimRight_le piece
  refine ⟨piece, ?_, h.found, ?_, ?_⟩
  · show 0 ≤ p.line - 1
    omega
  · show 0 ≤ p.column - 1
    omega
  · show p.column - 1 ≤ piece.length
    omega

theorem diagnostics_eq_nil_iff {source : String} :
    diagnostics source = [] ↔ source = "" ∨ ∃ nodes, parse source = .ok nodes := by
  unfold diagnostics
  split
  next hempty => simp [String.isEmpty_iff.mp hempty]
  next hempty =>
    have hne : source ≠ "" := fun h => hempty (String.isEmpty_iff.mpr h)
    cases hparse : parse source with
    | ok nodes => simp
    | error e => simp [hne]

theorem diagnostics_of_error {source : String} {e : SourceError} (hne : source ≠ "")
    (h : parse source = .error e) : diagnostics source = [e.diagnostic] := by
  unfold diagnostics
  rw [if_neg (fun hempty => hne (String.isEmpty_iff.mp hempty)), h]

/-- **Faults point inside the document.**  The place of a fault is on a line that is
not blank, at most one character behind its last one, and the snippet shows that
line with the caret below the place.  An editor is told nothing exactly if the
document is empty or reads well; else it is told one thing, at the start of the
document if the error is about all of it, and otherwise at the fault. -/
theorem faults_point_inside (source : String) :
    (∀ fault other, parse source = .error (.malformed fault other) →
        other = source
          ∧ (∀ room : Room, maxSourceBytes ≤ room.spaces →
              (fault.report other).overflow? room = none)
          ∧ ∃ piece, Inside source fault.position piece
          ∧ ∀ file, Shows ((fault.report other).snippet file).toList fault.position piece)
      ∧ (diagnostics source = [] ↔ source = "" ∨ ∃ nodes, parse source = .ok nodes)
      ∧ ∀ e, source ≠ "" → parse source = .error e →
          ∃ d, diagnostics source = [d]
            ∧ ((∀ fault other, e ≠ .malformed fault other) → d.start = ⟨0, 0⟩)
            ∧ ∀ fault other, e = .malformed fault other →
                d.start = ⟨fault.position.line - 1, fault.position.column - 1⟩
                  ∧ Within source d.start := by
  refine ⟨fun fault other h => ?_, diagnostics_eq_nil_iff, fun e hne h => ?_⟩
  · obtain ⟨-, -, rfl⟩ := parse_eq_malformed_iff.mp h
    obtain ⟨piece, hinside⟩ := inside_of_fault h
    exact ⟨rfl, fun room hroom => overflow?_of_fault h hroom, piece, hinside,
      fun file => snippet_shows (r := fault.report other) hinside file⟩
  · refine ⟨e.diagnostic, diagnostics_of_error hne h, fun hwhole => ?_, fun fault other he => ?_⟩
    · cases e with
      | malformed fault other => exact absurd rfl (hwhole fault other)
      | empty | tooLarge | forbidden => rfl
    · subst he
      obtain ⟨-, -, rfl⟩ := parse_eq_malformed_iff.mp h
      obtain ⟨piece, hinside⟩ := inside_of_fault h
      exact ⟨rfl, hinside.within⟩

/-- Ten lines, the last of them without the name of an id and with a carriage return
at its end. -/
def crowdedSource : String := "p\n\n\n\n\n\n\n\n\n  b#\r"

/-- What is wrong with it. -/
def crowdedFault : Fault := ⟨.idMissing, ⟨10, 5⟩⟩

theorem faults_point_inside_crowded :
    parse crowdedSource = .error (.malformed crowdedFault crowdedSource)
      ∧ Inside crowdedSource ⟨10, 5⟩ "  b#\r".toList
      ∧ Shows ((crowdedFault.report crowdedSource).snippet "a.tml").toList ⟨10, 5⟩
          "  b#\r".toList
      ∧ diagnostics crowdedSource = [Diagnostic.at 9 4 "expected id after '#'"]
      ∧ Within crowdedSource ⟨9, 4⟩ := by
  have hparse : parse crowdedSource = .error (.malformed crowdedFault crowdedSource) := by
    rw [parse_eq_malformed_iff, check_eq_ok_iff]
    exact ⟨⟨by decide, by decide, by rfl⟩, by decide +kernel, rfl⟩
  obtain ⟨hfault, -, herror⟩ := faults_point_inside crowdedSource
  obtain ⟨-, -, piece, hinside, hshows⟩ := hfault _ _ hparse
  obtain ⟨d, hd, -, hplace⟩ := herror _ (by decide) hparse
  have hline : (lines crowdedSource.toList)[9]? = some "  b#\r".toList := by decide +kernel
  obtain rfl : piece = "  b#\r".toList := Option.some.inj (hinside.found.symm.trans hline)
  obtain ⟨hstart, hwithin⟩ := hplace _ _ rfl
  rw [hstart] at hwithin
  exact ⟨hparse, hinside, hshows "a.tml", diagnostics_of_error (by decide) hparse, hwithin⟩

end Offside.Positions
