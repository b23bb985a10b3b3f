/-
  Offside.Proofs.FirstFault
  ─────────────────────────
  **A FAULT IS THAT OF THE FIRST BAD LINE.**

  Nesting looks ahead: a line takes all deeper lines that follow it.  Even so,
  no line is ever judged by what comes after it:

    · `forest_error_append`  lines that cannot be read cannot be read with more
      lines behind them, and the fault is the same;
    · `exists_faulty_line`   the fault stands on one line, and the lines up to
      that one are enough to meet it.

  Together with `scan_eq_flushed`, which finds the lines of a source from its
  front, this makes the fault of a source a matter of its lines up to the one
  that the fault names.
-/
import Offside.Proofs.Numbering
import Offside.Proofs.OffsideRule
import Offside.Proofs.RoundTrip

namespace Offside.Document

open Text

/-! ## §1. Deeper lines, and lines behind them. -/

variable {depth : Nat} {done : List Node} {line : Line} {rest more : List Line} {fault : Fault}

/-- Lines put behind others can only lengthen the run of deeper lines. -/
theorem exists_below_append (line : Line) (rest more : List Line) :
    ∃ further, below line (rest ++ more) = below line rest ++ further := by
  unfold below
  rw [List.takeWhile_append]
  split
  next hlen =>
    have hself := (List.takeWhile_prefix fun l : Line => decide (line.indent < l.indent)).eq_of_length
      hlen
    rw [hself]
    exact ⟨_, rfl⟩
  next => exact ⟨[], (List.append_nil _).symm⟩

/-- Where the run ends, lines put behind change nothing. -/
theorem below_append_of_beyond (h : beyond line rest ≠ []) (more : List Line) :
    below line (rest ++ more) = below line rest := by
  unfold below
  rw [List.takeWhile_append, if_neg]
  intro hlen
  have hself := (List.takeWhile_prefix fun l : Line => decide (line.indent < l.indent)).eq_of_length
    hlen
  exact h (List.dropWhile_eq_nil_iff.mpr (List.takeWhile_eq_self_iff.mp hself))

theorem beyond_append_of_beyond (h : beyond line rest ≠ []) (more : List Line) :
    beyond line (rest ++ more) = beyond line rest ++ more := by
  unfold beyond at h ⊢
  rw [List.dropWhile_append, if_neg]
  simpa using h

theorem deeper_of_mem_below {l : Line} (h : l ∈ below line rest) : line.indent < l.indent := by
  have hdeep := List.mem_takeWhile_imp h
  exact of_decide_eq_true hdeep

/-- Nothing is wrong with no lines. -/
theorem ne_nil_of_forest_error (h : forest depth done rest = .error fault) : rest ≠ [] := by
  rintro rfl
  rw [forest] at h
  exact absurd h (by simp)

/-! ## §2. Faults and more lines. -/

/-- **A fault stays**, whatever lines follow. -/
theorem forest_error_append (h : forest depth done rest = .error fault) (more : List Line) :
    forest depth done (rest ++ more) = .error fault := by
  -- a fault beyond the deeper lines shows that their run has an end, which more
  -- lines do not move; only a fault inside the run has to bear a longer one
  fun_induction forest depth done rest generalizing more with
  | case1 depth done => exact absurd h (by simp)
  | case2 depth done line rest fault' hrole =>
    rw [List.cons_append, forest, hrole]
    exact h
  | case3 depth done line rest node hrole ih =>
    rw [List.cons_append, forest, hrole]
    exact ih h more
  | case4 depth done line rest hrole ih =>
    have hbeyond := ne_nil_of_forest_error h
    rw [List.cons_append, forest, hrole]
    simp only [below_append_of_beyond hbeyond, beyond_append_of_beyond hbeyond]
    exact ih h more
  | case5 depth done line rest tag hrole block =>
    rename_i children ih
    have hbeyond := ne_nil_of_forest_error h
    rw [List.cons_append, forest, hrole]
    simp only [below_append_of_beyond hbeyond, beyond_append_of_beyond hbeyond]
    exact ih h more
  | case6 depth done line rest tag front hrole fault' hinner ih =>
    -- the run below the tag may grow, but its fault stays
    obtain ⟨further, hbelow⟩ := exists_below_append line rest more
    rw [List.cons_append, forest, hrole]
    simp only [hbelow, ih (hinner.trans h) further]
  | case7 depth done line rest tag front hrole inner hinner ih₁ ih₂ =>
    have hbeyond := ne_nil_of_forest_error h
    rw [List.cons_append, forest, hrole]
    simp only [below_append_of_beyond hbeyond, beyond_append_of_beyond hbeyond, hinner]
    exact ih₂ h more

/-! ## §3. The line of a fault. -/

theorem number_of_headRole_error {head : Head} (h : headRole line head = .error fault) :
    fault.position.line = line.number := by
  unfold headRole at h
  split at h
  next =>
    split at h
    next => exact absurd h (by simp)
    next =>
      injection h with h
      rw [← h]
      rfl
  next =>
    split at h
    all_goals exact absurd h (by simp)

/-- What is wrong with a line is said of that line. -/
theorem number_of_role_error (h : role depth line = .error fault) :
    fault.position.line = line.number := by
  unfold role at h
  split at h
  next =>
    split at h
    next =>
      injection h with h
      rw [← h]
      rfl
    next => exact absurd h (by simp)
  next => exact absurd h (by simp)
  next =>
    unfold tagRole at h
    split at h
    next =>
      injection h with h
      rw [← h]
      rfl
    next =>
      split at h
      next =>
        injection h with h
        rw [← h]
        rfl
      next => exact number_of_headRole_error h
  next => exact absurd h (by simp)

/-- The lines of which the last one is faulty: they meet the fault, and the
fault names that line. -/
structure EndsIn (fault : Fault) (depth : Nat) (done : List Node) (before : List Line)
    (line : Line) : Prop where
  number : fault.position.line = line.number
  meets : forest depth done (before ++ [line]) = .error fault

/-- Lines up to one beyond the run of deeper lines: the run is the same. -/
theorem upTo_beyond {before after : List Line} {bad : Line}
    (h : beyond line rest = before ++ bad :: after) :
    rest = (below line rest ++ before) ++ bad :: after
      ∧ below line (below line rest ++ (before ++ [bad])) = below line rest
      ∧ beyond line (below line rest ++ (before ++ [bad])) = before ++ [bad] := by
  have hdeep : ∀ l ∈ below line rest, line.indent < l.indent := fun l => deeper_of_mem_below
  have hstop : Stops (fun l : Line => decide (line.indent < l.indent)) (before ++ [bad]) := by
    have hrest := stops_dropWhile (p := fun l : Line => decide (line.indent < l.indent)) rest
    change Stops _ (beyond line rest) at hrest
    rw [h] at hrest
    -- both begin with the same line
    intro l hl
    apply hrest l
    cases before with
    | nil => exact hl
    | cons first before => exact hl
  refine ⟨?_, Printing.below_append hdeep hstop, Printing.beyond_append hdeep hstop⟩
  rw [List.append_assoc, ← h, Nesting.below_append_beyond]

/-- Lines up to one inside the run of deeper lines: all of them are deeper. -/
theorem upTo_below {before after : List Line} {bad : Line}
    (h : below line rest = before ++ bad :: after) :
    rest = before ++ bad :: (after ++ beyond line rest)
      ∧ below line (before ++ [bad]) = before ++ [bad] := by
  constructor
  · conv_lhs => rw [← Nesting.below_append_beyond line rest, h, List.append_assoc, List.cons_append]
  · unfold below
    rw [List.takeWhile_eq_self_iff]
    intro l hl
    apply decide_eq_true
    apply deeper_of_mem_below
    rw [h]
    rcases List.mem_append.mp hl with hl | hl
    · exact List.mem_append_left _ hl
    · rw [List.mem_singleton.mp hl]
      simp

/-- A fault beyond a run of deeper lines.  What the line makes of the run is
the same `node` whatever follows the run. -/
theorem faulty_line_beyond {node : Node}
    (hstep : ∀ rest', below line rest' = below line rest →
      forest depth done (line :: rest') = forest depth (node :: done) (beyond line rest'))
    (h : ∃ before bad after, beyond line rest = before ++ bad :: after
      ∧ EndsIn fault depth (node :: done) before bad) :
    ∃ before bad after, line :: rest = before ++ bad :: after
      ∧ EndsIn fault depth done before bad := by
  obtain ⟨before, bad, after, hbeyond, hends⟩ := h
  obtain ⟨hrest, hrun, hleft⟩ := upTo_beyond hbeyond
  refine ⟨line :: (below line rest ++ before), bad, after, ?_, hends.number, ?_⟩
  · rw [List.cons_append, ← hrest]
  · rw [List.cons_append, List.append_assoc, hstep _ hrun, hleft]
    exact hends.meets

/-- **Every fault has its line**, and is met as soon as that line is read. -/
theorem exists_faulty_line (h : forest depth done rest = .error fault) :
    ∃ before line after, rest = before ++ line :: after
      ∧ EndsIn fault depth done before line := by
  fun_induction forest depth done rest with
  | case1 depth done => exact absurd h (by simp)
  | case2 depth done line rest fault' hrole =>
    injection h with h
    subst h
    refine ⟨[], line, rest, rfl, number_of_role_error hrole, ?_⟩
    rw [List.nil_append, forest, hrole]
  | case3 depth done line rest node hrole ih =>
    obtain ⟨before, bad, after, hrest, hends⟩ := ih h
    refine ⟨line :: before, bad, after, by rw [hrest]; rfl, hends.number, ?_⟩
    rw [List.cons_append, forest, hrole]
    exact hends.meets
  | case4 depth done line rest hrole ih =>
    refine faulty_line_beyond (fun rest' hrun => ?_) (ih h)
    rw [forest, hrole]
    simp only [hrun]
  | case5 depth done line rest tag hrole block =>
    rename_i children ih
    refine faulty_line_beyond (fun rest' hrun => ?_) (ih h)
    rw [forest, hrole]
    simp only [hrun]
    rfl
  | case6 depth done line rest tag front hrole fault' hinner ih =>
    -- the fault is inside the run, and so are all lines before it
    obtain ⟨before, bad, after, hbelow, hends⟩ := ih (hinner.trans h)
    obtain ⟨hrest, hrun⟩ := upTo_below hbelow
    refine ⟨line :: before, bad, after ++ beyond line rest, ?_, hends.number, ?_⟩
    · rw [List.cons_append, ← hrest]
    · rw [List.cons_append, forest, hrole]
      simp only [hrun, hends.meets]
  | case7 depth done line rest tag front hrole inner hinner ih₁ ih₂ =>
    refine faulty_line_beyond (fun rest' hrun => ?_) (ih₂ h)
    rw [forest, hrole]
    simp only [hrun, hinner]

/-! ## §4. The first lines of a source. -/

/-- The first pieces make the first lines, and the others have larger
numbers. -/
theorem exists_flushed_take (pieces : List (List Char)) (k : Nat) :
    ∃ others, flushed (numbered 1 pieces) = flushed (numbered 1 (pieces.take k)) ++ others
      ∧ ∀ l ∈ others, k < l.number := by
  have hsplit := numbered_append 1 (pieces.take k) (pieces.drop k)
  rw [List.take_append_drop] at hsplit
  have hlater : ∀ l ∈ numbered (1 + (pieces.take k).length) (pieces.drop k), k < l.number := by
    intro l hl
    obtain ⟨hlow, hhigh⟩ := number_of_mem_numbered hl
    rw [List.length_take] at hlow hhigh
    rw [List.length_drop] at hhigh
    omega
  by_cases hnone : numbered 1 (pieces.take k) = []
  · refine ⟨flushed (numbered (1 + (pieces.take k).length) (pieces.drop k)), ?_, ?_⟩
    · rw [hsplit, hnone]
      rfl
    · intro l hl
      obtain ⟨l', hl', hnumber⟩ := exists_number_of_mem_flushed hl
      rw [← hnumber]
      exact hlater l' hl'
  · exact ⟨_, by rw [hsplit, flushed_append hnone], hlater⟩

theorem number_of_mem_take {pieces : List (List Char)} {k : Nat} {l : Line}
    (h : l ∈ flushed (numbered 1 (pieces.take k))) : 1 ≤ l.number ∧ l.number ≤ k := by
  obtain ⟨l', hl', hnumber⟩ := exists_number_of_mem_flushed h
  obtain ⟨hlow, hhigh⟩ := number_of_mem_numbered hl'
  have hlength := List.length_take_le k pieces
  omega

/-- Pieces behind those that make a fault do not change it. -/
theorem forest_of_take_error {pieces : List (List Char)} {k : Nat}
    (h : forest depth done (flushed (numbered 1 (pieces.take k))) = .error fault) :
    forest depth done (flushed (numbered 1 pieces)) = .error fault := by
  obtain ⟨others, hothers, -⟩ := exists_flushed_take pieces k
  rw [hothers]
  exact forest_error_append h others

/-- The pieces up to the line that a fault names make that fault. -/
theorem forest_take_of_error {pieces : List (List Char)} {k : Nat}
    (h : forest depth done (flushed (numbered 1 pieces)) = .error fault)
    (hk : fault.position.line = k) :
    forest depth done (flushed (numbered 1 (pieces.take k))) = .error fault := by
  obtain ⟨before, bad, after, hlines, hends⟩ := exists_faulty_line h
  obtain ⟨others, hothers, hlater⟩ := exists_flushed_take pieces k
  have hbad : bad ∉ others := by
    intro hmem
    have hlate := hlater bad hmem
    have hnumber := hends.number
    omega
  rw [hothers] at hlines
  rcases List.append_eq_append_iff.mp hlines with ⟨between, -, hrest⟩ | ⟨found, hfound, hrest⟩
  · -- the faulty line would be one of the others
    exact absurd (by rw [hrest]; simp) hbad
  · cases found with
    | nil => exact absurd (by rw [← List.nil_append others, ← hrest]; simp) hbad
    | cons l found =>
      obtain ⟨rfl, -⟩ := List.cons.inj hrest
      rw [hfound, List.append_cons]
      exact forest_error_append hends.meets found

/-- The fault of the first pieces stands on one of them. -/
theorem line_of_take_error {pieces : List (List Char)} {k : Nat}
    (h : forest depth done (flushed (numbered 1 (pieces.take k))) = .error fault) :
    1 ≤ fault.position.line ∧ fault.position.line ≤ k := by
  obtain ⟨before, bad, after, hlines, hends⟩ := exists_faulty_line h
  have hmem : bad ∈ flushed (numbered 1 (pieces.take k)) := by
    rw [hlines]
    simp
  obtain ⟨hlow, hhigh⟩ := number_of_mem_take hmem
  have hnumber := hends.number
  omega

/-! ## §5. Sources. -/

/-- Whether a source may be read at all is not a question of its lines. -/
theorem ne_malformed_of_check {source other : String} {e : SourceError}
    (h : check source = .error e) : e ≠ .malformed fault other := by
  rintro rfl
  unfold check at h
  split at h
  · simp at h
  · split at h
    · simp at h
    · split at h <;> simp at h

theorem parse_eq_malformed_iff {source other : String} :
    parse source = .error (.malformed fault other) ↔
      check source = .ok () ∧ forest 1 [] (Line.scan source) = .error fault ∧ other = source := by
  unfold parse
  cases hcheck : check source with
  | error e => simp [ne_malformed_of_check hcheck]
  | ok u =>
    cases hforest : forest 1 [] (Line.scan source) with
    | error fault' => simp [eq_comm]
    | ok nodes => simp

/-- Two sources with the same first lines show the same line. -/
theorem shownLine_eq_of_take {source source' : String} {k : Nat} (hpos : 1 ≤ k)
    (hk : fault.position.line = k)
    (hlines : (lines source'.toList).take k = (lines source.toList).take k) :
    (fault.report source').shownLine = (fault.report source).shownLine := by
  have hindex : ((k : Int) - 1).toNat = k - 1 := by omega
  have hget : (lines source'.toList)[k - 1]? = (lines source.toList)[k - 1]? := by
    rw [← List.getElem?_take_of_lt (by omega : k - 1 < k), hlines,
      List.getElem?_take_of_lt (by omega)]
  unfold Report.shownLine Fault.report
  simp only [hk, hindex, hget]

/-- The first lines of a source, as a source of their own. -/
def firstLines (source : String) (j : Nat) : String :=
  String.ofList (unlines ((lines source.toList).take j))

/-- A source of some first lines has these lines. -/
theorem lines_firstLines {source : String} {j : Nat} (hpos : 1 ≤ j) :
    lines (firstLines source j).toList = (lines source.toList).take j := by
  unfold firstLines
  rw [String.toList_ofList]
  refine lines_unlines ?_ fun l hl => newline_not_mem_of_mem_lines (List.mem_of_mem_take hl)
  obtain ⟨l, ls, h⟩ := exists_lines_eq source.toList
  obtain ⟨i, rfl⟩ := Nat.exists_eq_add_of_le' hpos
  rw [h]
  simp

/-- Without a line there is no source to find fault with. -/
theorem check_firstLines_zero (source : String) : check (firstLines source 0) = .error .empty := by
  rfl

/-- **A fault depends on the lines up to its own, and on nothing after them.**  It
names a line of the source.  Every source that begins with the same lines has
the same fault with the same snippet, and no smaller number of first lines has
any. -/
theorem parse_fault_of_first_lines {source : String} {fault : Fault} {k : Nat}
    (h : parse source = .error (.malformed fault source)) (hk : fault.position.line = k) :
    (1 ≤ k ∧ k ≤ (lines source.toList).length)
      ∧ (∀ source', check source' = .ok () →
          (lines source'.toList).take k = (lines source.toList).take k →
          parse source' = .error (.malformed fault source')
            ∧ ∀ file, (fault.report source').snippet file = (fault.report source).snippet file)
      ∧ ∀ j < k, ∀ fault' other,
          parse (firstLines source j) ≠ .error (.malformed fault' other) := by
  obtain ⟨-, hforest, -⟩ := parse_eq_malformed_iff.mp h
  rw [scan_eq_flushed] at hforest
  have hfirst := forest_take_of_error hforest hk
  have hline : 1 ≤ fault.position.line
      ∧ fault.position.line ≤ (lines source.toList).length := by
    apply line_of_take_error
    rw [List.take_length]
    exact hforest
  have hpos : 1 ≤ k := by omega
  refine ⟨⟨hpos, by omega⟩, fun source' hcheck hsame => ⟨?_, fun file => ?_⟩,
    fun j hj fault' other hfault => ?_⟩
  · rw [parse_eq_malformed_iff, scan_eq_flushed]
    refine ⟨hcheck, forest_of_take_error (k := k) ?_, rfl⟩
    rw [hsame]
    exact hfirst
  · unfold Report.snippet
    rw [shownLine_eq_of_take hpos hk hsame]
    rfl
  · obtain ⟨hcheck, hshort, -⟩ := parse_eq_malformed_iff.mp hfault
    by_cases hj0 : j = 0
    · rw [hj0, check_firstLines_zero] at hcheck
      exact absurd hcheck (by simp)
    · -- the fault of fewer lines would be the fault of all, but on an earlier line
      rw [scan_eq_flushed, lines_firstLines (by omega)] at hshort
      have hsame := forest_of_take_error hshort
      rw [hforest] at hsame
      injection hsame with hsame
      have hearly := line_of_take_error hshort
      rw [← hsame] at hearly
      omega

/-- A bad line inside a block is text, so the first fault is the content of a void
tag further down, and a worse line follows. -/
def faultySource : String := "\n  div: |\n    p.\nb\n   br: x\n#\n q["

/-- Another source with the same five lines in front. -/
def faultyTwin : String := "\n  div: |\n    p.\nb\n   br: x\n      !DOCTYPE html\n"

/-- What is wrong with both. -/
def voidContent : Fault := ⟨.contentInVoid "br", ⟨5, 8⟩⟩

theorem parse_fault_of_first_lines_block :
    parse faultySource = .error (.malformed voidContent faultySource)
      ∧ parse faultyTwin = .error (.malformed voidContent faultyTwin)
      ∧ (voidContent.report faultyTwin).snippet defaultFileName
          = (voidContent.report faultySource).snippet defaultFileName
      ∧ ∀ fault' other, parse (firstLines faultySource 4) ≠ .error (.malformed fault' other) := by
  have hparse : parse faultySource = .error (.malformed voidContent faultySource) := by
    rw [parse_eq_malformed_iff, check_eq_ok_iff]
    exact ⟨⟨by decide, by decide, by rfl⟩, by decide +kernel, rfl⟩
  have hcheck : check faultyTwin = .ok () := by
    rw [check_eq_ok_iff]
    exact ⟨by decide, by decide, by rfl⟩
  obtain ⟨-, hsame, hfewer⟩ := parse_fault_of_first_lines hparse (k := 5) rfl
  obtain ⟨htwin, hsnippet⟩ := hsame faultyTwin hcheck (by decide +kernel)
  exact ⟨hparse, htwin, hsnippet defaultFileName, hfewer 4 (by decide)⟩

end Offside.Document
