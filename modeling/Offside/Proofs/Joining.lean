/-
  Offside.Proofs.Joining
  ──────────────────────
  **ONE SOURCE BELOW ANOTHER.**

  A source may end inside anything: a tag that waits for children, a block of
  text that has no line yet.  A line at the margin ends all of them, because no
  line is less indented.  So the lines of a second source that starts at the
  margin nest as they do alone, and their nodes follow those of the first:

    · `forest_append_margin`  the seam closes every open run;
    · `exists_scan_joined`    the second source has its own lines, with numbers
      that go on where the first source ends;
    · `parse_joined`          joining sources joins their forests.
-/
import Offside.Proofs.SourceLayout

namespace Offside.Document

open Text Positions

/-! ## §1. The seam. -/

variable {depth : Nat} {done nodes : List Node} {rest more : List Line}

/-- The first of the lines is not indented. -/
def AtMargin (ls : List Line) : Prop := ∀ l ∈ ls.head?, l.indent = 0

theorem AtMargin.stops (h : AtMargin more) (line : Line) :
    Stops (fun l : Line => decide (line.indent < l.indent)) more := by
  intro l hl
  show decide (line.indent < l.indent) = false
  rw [h l hl]
  exact decide_eq_false (Nat.not_lt_zero _)

/-- A line at the margin ends the run of deeper lines. -/
theorem below_append_margin (hmore : AtMargin more) (line : Line) (rest : List Line) :
    below line (rest ++ more) = below line rest
      ∧ beyond line (rest ++ more) = beyond line rest ++ more := by
  have hdeep : ∀ l ∈ below line rest, line.indent < l.indent := fun l => deeper_of_mem_below
  have hstop : Stops (fun l : Line => decide (line.indent < l.indent)) (beyond line rest ++ more) :=
    stops_append (stops_dropWhile rest) (hmore.stops line)
  have hsplit : rest ++ more = below line rest ++ (beyond line rest ++ more) := by
    rw [← List.append_assoc, Nesting.below_append_beyond]
  constructor
  · conv_lhs => rw [hsplit, Printing.below_append hdeep hstop]
  · conv_lhs => rw [hsplit, Printing.beyond_append hdeep hstop]

/-- **The seam closes every open run**: lines at the margin are read after all that
the lines before them make. -/
theorem forest_append_margin (hmore : AtMargin more) (h : forest depth done rest = .ok nodes) :
    forest depth done (rest ++ more) = forest depth nodes.reverse more := by
  -- `more` is passed on from beyond one run to beyond the next and never enters one
  fun_induction forest depth done rest with
  | case1 depth done =>
    injection h with h
    rw [← h, List.reverse_reverse, List.nil_append]
  | case2 depth done line rest fault hrole => exact absurd h (by simp)
  | case3 depth done line rest node hrole ih =>
    rw [List.cons_append, forest, hrole]
    exact ih h
  | case4 depth done line rest hrole ih =>
    obtain ⟨hbelow, hbeyond⟩ := below_append_margin hmore line rest
    rw [List.cons_append, forest, hrole]
    simp only [hbelow, hbeyond]
    exact ih h
  | case5 depth done line rest tag hrole block =>
    rename_i children ih
    obtain ⟨hbelow, hbeyond⟩ := below_append_margin hmore line rest
    rw [List.cons_append, forest, hrole]
    simp only [hbelow, hbeyond]
    exact ih h
  | case6 depth done line rest tag lead hrole fault hinner ih => exact absurd h (by simp)
  | case7 depth done line rest tag lead hrole children hinner ih₁ ih₂ =>
    obtain ⟨hbelow, hbeyond⟩ := below_append_margin hmore line rest
    rw [List.cons_append, forest, hrole]
    simp only [hbelow, hbeyond, hinner]
    exact ih₂ h

/-- Nodes that were made before are in front of those that lines make. -/
theorem forest_done (depth : Nat) (done before : List Node) (ls : List Line) :
    forest depth (done ++ before) ls = (forest depth done ls).map (before.reverse ++ ·) := by
  fun_induction forest depth done ls with
  | case1 depth done =>
    rw [forest, List.reverse_append]
    rfl
  | case2 depth done line rest fault hrole =>
    rw [forest, hrole]
    rfl
  | case3 depth done line rest node hrole ih =>
    rw [forest, hrole]
    exact ih
  | case4 depth done line rest hrole ih =>
    rw [forest, hrole]
    exact ih
  | case5 depth done line rest tag hrole block =>
    rename_i children ih
    rw [forest, hrole]
    exact ih
  | case6 depth done line rest tag lead hrole fault hinner ih =>
    rw [forest, hrole]
    simp only [hinner]
    rfl
  | case7 depth done line rest tag lead hrole children hinner ih₁ ih₂ =>
    rw [forest, hrole]
    simp only [hinner]
    exact ih₂

/-- Lines at the margin make the same nodes, or meet the same fault, whatever good
lines stand before them. -/
theorem forest_below (hmore : AtMargin more) (h : forest 1 [] rest = .ok nodes) :
    forest 1 [] (rest ++ more) = (forest 1 [] more).map (nodes ++ ·) := by
  rw [forest_append_margin hmore h]
  simpa using forest_done 1 [] nodes.reverse more

/-! ## §2. The lines of joined sources. -/

/-- One source, and another from the next line on. -/
def joined (s t : String) : String := s ++ "\n" ++ t

theorem toList_joined (s t : String) : (joined s t).toList = s.toList ++ '\n' :: t.toList := by
  simp [joined]

/-- A line whose number is larger by `n`. -/
def renumber (n : Nat) (line : Line) : Line := { line with number := line.number + n }

theorem numbered_add (k n : Nat) (pieces : List (List Char)) :
    numbered (k + n) pieces = (numbered k pieces).map (renumber n) := by
  induction pieces generalizing k with
  | nil => rfl
  | cons piece pieces ih =>
    have hpiece : Line.ofPiece? piece (k + n) = (Line.ofPiece? piece k).map (renumber n) := by
      rw [ofPiece?_eq, ofPiece?_eq, Option.map_map]
      rfl
    rw [numbered_cons, numbered_cons, List.map_append, ← Option.toList_map, hpiece,
      Nat.add_right_comm, ih (k + 1)]

theorem flushed_map_renumber (n : Nat) (ls : List Line) :
    flushed (ls.map (renumber n)) = (flushed ls).map (renumber n) := by
  cases ls <;> rfl

/-- The second source has its own lines below those of the first.  Only the first of
them may stand elsewhere: it is moved to the margin if there is no line above it. -/
theorem exists_scan_joined (s t : String) :
    ∃ tail, (tail = Line.scan t ∨ tail = numbered 1 (lines t.toList))
      ∧ Line.scan (joined s t)
          = Line.scan s ++ tail.map (renumber (lines s.toList).length) := by
  have hlines : numbered 1 (lines (joined s t).toList) = numbered 1 (lines s.toList)
      ++ (numbered 1 (lines t.toList)).map (renumber (lines s.toList).length) := by
    rw [toList_joined, lines_append_newline, numbered_append, numbered_add]
  rw [scan_eq_flushed (joined s t), hlines, scan_eq_flushed s]
  by_cases hnone : numbered 1 (lines s.toList) = []
  · -- the first line of all is the first line of `t`
    refine ⟨Line.scan t, .inl rfl, ?_⟩
    rw [hnone, List.nil_append, flushed_map_renumber, scan_eq_flushed t]
    rfl
  · exact ⟨_, .inr rfl, flushed_append hnone _⟩

/-! ### The first line of the second source. -/

/-- The first line that is not blank, if there is one, does not start with a
character that has the property. -/
def FirstLineStops (p : Char → Bool) (source : String) : Prop :=
  ∀ q ∈ (inkedPieces source).head?, Stops p q.1

/-- The first line is that of the first piece that is not blank. -/
theorem exists_first_piece {k : Nat} {pieces : List (List Char)} {l : Line}
    (h : l ∈ (numbered k pieces).head?) :
    ∃ q ∈ ((pieces.zipIdx k).filter fun p => !(trim p.1).isEmpty).head?,
      Line.ofPiece? q.1 q.2 = some l := by
  induction pieces generalizing k with
  | nil => exact absurd h (by simp)
  | cons piece pieces ih =>
    rw [numbered_cons] at h
    rw [List.zipIdx_cons]
    by_cases hblank : trim piece = []
    · rw [ofPiece?_eq_none_iff.mpr hblank] at h
      rw [List.filter_cons_of_neg (by simp [hblank])]
      exact ih h
    · obtain ⟨first, hfirst⟩ :=
        Option.ne_none_iff_exists'.mp fun hnone => hblank (ofPiece?_eq_none_iff.mp hnone)
      rw [hfirst] at h
      obtain rfl : first = l := by simpa using h
      rw [List.filter_cons_of_pos (by simp [hblank])]
      exact ⟨(piece, k), rfl, hfirst⟩

theorem atMargin_numbered {source : String} (h : FirstLineStops (· == ' ') source) :
    AtMargin (numbered 1 (lines source.toList)) := by
  intro l hl
  obtain ⟨q, hq, hpiece⟩ := exists_first_piece hl
  rw [ofPiece?_eq, takeWhile_of_stops (h q hq)] at hpiece
  obtain ⟨kind, -, rfl⟩ := Option.map_eq_some_iff.mp hpiece
  rfl

theorem atMargin_scan (source : String) : AtMargin (Line.scan source) := by
  rw [scan_eq_flushed]
  cases numbered 1 (lines source.toList) with
  | nil => exact fun l hl => absurd hl (by simp [flushed])
  | cons first rest =>
    intro l hl
    obtain rfl : first.flush = l := by simpa [flushed] using hl
    rfl

theorem AtMargin.map_renumber {ls : List Line} (h : AtMargin ls) (n : Nat) :
    AtMargin (ls.map (renumber n)) := by
  intro l hl
  rw [List.head?_map] at hl
  obtain ⟨m, hm, rfl⟩ := Option.map_eq_some_iff.mp hl
  exact h m hm

/-- A source whose first line starts without a blank has it where it stands. -/
theorem numbered_eq_scan {source : String} (h : FirstLineStops isBlank source) :
    numbered 1 (lines source.toList) = Line.scan source := by
  rw [scan_eq_flushed]
  cases hlines : numbered 1 (lines source.toList) with
  | nil => rfl
  | cons first rest =>
    have hfirst : first ∈ (numbered 1 (lines source.toList)).head? := by rw [hlines]; rfl
    obtain ⟨⟨piece, k⟩, hq, hpiece⟩ := exists_first_piece hfirst
    have hstop : Stops isBlank piece := h _ hq
    cases piece with
    | nil =>
      rw [ofPiece?_eq_none_iff.mpr rfl] at hpiece
      exact absurd hpiece (by simp)
    | cons c piece =>
      have hflush := ofPiece?_flush (stops_cons.mp hstop) piece k
      rw [hpiece, Option.map_some, Option.some.injEq] at hflush
      rw [flushed, hflush]

/-! ## §3. The second source alone and below another. -/

/-- Two lines that say the same, at one indentation. -/
structure SaysSame (l l' : Line) : Prop where
  kind : l'.kind = l.kind
  text : l'.text = l.text
  indent : l'.indent = l.indent

theorem pairing_saysSame : Pairing SaysSame where
  kind h := h.kind
  text h := h.text
  deeper hl hm := by rw [hl.indent, hm.indent]

theorem saysSame_renumber (n : Nat) (ls : List Line) :
    List.Forall₂ SaysSame ls (ls.map (renumber n)) := by
  rw [List.forall₂_map_right_iff, List.forall₂_same]
  exact fun l _ => ⟨rfl, rfl, rfl⟩

/-- To move a first line that is at the margin already changes its column at most. -/
theorem saysSame_flushed {ls : List Line} (h : AtMargin ls) (n : Nat) :
    List.Forall₂ SaysSame (flushed ls) (ls.map (renumber n)) := by
  cases ls with
  | nil => exact .nil
  | cons first rest => exact .cons ⟨rfl, rfl, h first rfl⟩ (saysSame_renumber n rest)

theorem pairing_renumber (n : Nat) : Pairing fun l l' => l' = renumber n l :=
  pairing_map (fun _ => rfl) (fun _ => rfl) fun _ _ => Iff.rfl

/-- A fault whose line number is larger by `n`. -/
def lowered (n : Nat) (fault : Fault) : Fault :=
  ⟨fault.cause, ⟨fault.position.line + n, fault.position.column⟩⟩

/-- A fault has the number of its line. -/
theorem forest_renumber_error {ls : List Line} {fault : Fault} (h : forest 1 [] ls = .error fault)
    (n : Nat) : forest 1 [] (ls.map (renumber n)) = .error (lowered n fault) := by
  have hsame := forest_map (pairing_renumber n) 1 [] ls
  rw [h] at hsame
  obtain ⟨fault', hforest, hfault⟩ := hsame.exists_error
  rw [hforest]
  obtain @⟨l, _, rfl, cause, offset⟩ := hfault
  rfl

/-- Joined sources may be read when both may be and there is room for both. -/
theorem check_joined {s t : String} (hs : check s = .ok ()) (ht : check t = .ok ())
    (hsize : (joined s t).utf8ByteSize ≤ maxSourceBytes) : check (joined s t) = .ok () := by
  obtain ⟨-, -, hs⟩ := check_eq_ok_iff.mp hs
  obtain ⟨-, -, ht⟩ := check_eq_ok_iff.mp ht
  have hnewline : isForbidden '\n' = false := by decide
  refine check_eq_ok_iff.mpr ⟨?_, hsize, ?_⟩
  · intro hempty
    have hchars := toList_joined s t
    rw [hempty] at hchars
    exact absurd hchars (by simp)
  · rw [toList_joined, List.any_append, List.any_cons, hs, ht, hnewline]
    rfl

/-- **Joining sources joins their forests.**  A source that reads well can be put in
front of another whose first line does not start with a space.  If the other reads
well too, its nodes follow those of the first.  If it has a fault, and its first
line does not even start with a blank, then the two have that fault, further down by
the number of lines in front. -/
theorem parse_joined {s t : String} {nodes : List Node} (hs : parse s = .ok nodes)
    (hsize : (joined s t).utf8ByteSize ≤ maxSourceBytes) :
    (∀ others, parse t = .ok others → FirstLineStops (· == ' ') t →
        parse (joined s t) = .ok (nodes ++ others))
      ∧ ∀ fault, parse t = .error (.malformed fault t) → FirstLineStops isBlank t →
          parse (joined s t)
            = .error (.malformed (lowered (lines s.toList).length fault) (joined s t)) := by
  obtain ⟨hscheck, hsforest⟩ := parse_eq_ok_iff.mp hs
  obtain ⟨tail, htail, hscan⟩ := exists_scan_joined s t
  constructor
  · intro others ht hspace
    obtain ⟨htcheck, htforest⟩ := parse_eq_ok_iff.mp ht
    have hmargin := atMargin_numbered hspace
    -- the first line of `t` may lose a tab in front of it, but it has no space to lose
    have hsame : AtMargin tail ∧ List.Forall₂ SaysSame (Line.scan t)
        (tail.map (renumber (lines s.toList).length)) := by
      rcases htail with rfl | rfl
      · exact ⟨atMargin_scan t, saysSame_renumber _ _⟩
      · rw [scan_eq_flushed t]
        exact ⟨hmargin, saysSame_flushed hmargin _⟩
    have hforest := forest_paired pairing_saysSame hsame.2 1 []
    rw [htforest] at hforest
    refine parse_eq_ok_iff.mpr ⟨check_joined hscheck htcheck hsize, ?_⟩
    rw [hscan, forest_below (hsame.1.map_renumber _) hsforest, hforest.eq_ok]
    rfl
  · intro fault ht hblank
    obtain ⟨htcheck, htforest, -⟩ := parse_eq_malformed_iff.mp ht
    have htail : tail = Line.scan t := by
      rcases htail with h | h
      · exact h
      · rw [h, numbered_eq_scan hblank]
    refine parse_eq_malformed_iff.mpr ⟨check_joined hscheck htcheck hsize, ?_, rfl⟩
    rw [hscan, htail, forest_below ((atMargin_scan t).map_renumber _) hsforest,
      forest_renumber_error htforest]
    rfl

/-- A source that ends in a tag whose block has no line yet. -/
def openSource : String := "ul\n  li\n    b: |"

/-- A source whose first line stands behind a tab. -/
def tabbedSource : String := "\tp: x\n\ni"

/-- A source whose last line gives content to a void tag. -/
def brokenSource : String := "\np\n  br: y"

theorem parse_joined_open :
    parse (joined openSource tabbedSource)
        = .ok [.element ⟨"ul", [], none, []⟩ [.element ⟨"li", [], none, []⟩
            [.element ⟨"b", [], none, []⟩ []]],
          .element ⟨"p", [], none, []⟩ [.text "x"], .element ⟨"i", [], none, []⟩ []]
      ∧ parse (joined openSource brokenSource)
          = .error (.malformed ⟨.contentInVoid "br", ⟨6, 7⟩⟩ (joined openSource brokenSource)) := by
  have hopen : parse openSource = .ok [.element ⟨"ul", [], none, []⟩
      [.element ⟨"li", [], none, []⟩ [.element ⟨"b", [], none, []⟩ []]]] := by
    rw [parse_eq_ok_iff, check_eq_ok_iff]
    exact ⟨⟨by decide, by decide, by rfl⟩, by decide +kernel⟩
  have htabbed : parse tabbedSource
      = .ok [.element ⟨"p", [], none, []⟩ [.text "x"], .element ⟨"i", [], none, []⟩ []] := by
    rw [parse_eq_ok_iff, check_eq_ok_iff]
    exact ⟨⟨by decide, by decide, by rfl⟩, by decide +kernel⟩
  have hbroken : parse brokenSource
      = .error (.malformed ⟨.contentInVoid "br", ⟨3, 7⟩⟩ brokenSource) := by
    rw [parse_eq_malformed_iff, check_eq_ok_iff]
    exact ⟨⟨by decide, by decide, by rfl⟩, by decide +kernel, rfl⟩
  have htab : FirstLineStops (· == ' ') tabbedSource := by
    have hfirst : (inkedPieces tabbedSource).head? = some ("\tp: x".toList, 1) := by decide +kernel
    intro q hq
    obtain rfl := Option.some.inj (hfirst.symm.trans hq)
    exact stops_cons.mpr (by decide)
  have hletter : FirstLineStops isBlank brokenSource := by
    have hfirst : (inkedPieces brokenSource).head? = some ("p".toList, 2) := by decide +kernel
    intro q hq
    obtain rfl := Option.some.inj (hfirst.symm.trans hq)
    exact stops_cons.mpr (by decide)
  obtain ⟨hpage, -⟩ := parse_joined (t := tabbedSource) hopen (by decide)
  obtain ⟨-, hfault⟩ := parse_joined (t := brokenSource) hopen (by decide)
  exact ⟨hpage _ htabbed htab, hfault _ hbroken hletter⟩

end Offside.Document
