/-
  Offside.Proofs.SourceLayout
  ───────────────────────────
  **LAYOUT THAT MEANS NOTHING.**

  Nesting asks three things of its lines: what they say, at which places their
  text stands, and which of two lines is indented deeper.  So lines can be
  exchanged for others that say the same and are indented alike among
  themselves; `forest_paired` carries any such `Pairing` through the offside
  rule, and the only trace of the exchange is the place of a fault.

  Two kinds of layout are seen to mean nothing in this way:

    · blank lines, and blanks behind a line (`Edit`): the lines of the source
      keep all but their numbers;
    · how much deeper a line is: indentations can be renamed as long as their
      order is kept.
-/
import Mathlib.Logic.Relation
import Mathlib.Order.Monotone.Basic
import Offside.Proofs.Positions

namespace Offside.Document

open Text Positions

/-! ## §1. Lines that nesting cannot tell apart. -/

/-- Lines are paired with lines that say the same, and it shows in either half of
two pairs which line is deeper. -/
structure Pairing (S : Line → Line → Prop) : Prop where
  kind : ∀ {l l' : Line}, S l l' → l'.kind = l.kind
  text : ∀ {l l' : Line}, S l l' → l'.text = l.text
  deeper : ∀ {l l' m m' : Line}, S l l' → S m m' → (l'.indent < m'.indent ↔ l.indent < m.indent)

/-- Two faults have one cause, at the same offset in paired lines. -/
inductive SameFault (S : Line → Line → Prop) : Fault → Fault → Prop where
  | at {l l' : Line} (h : S l l') (cause : Cause) (offset : Nat) :
      SameFault S ⟨cause, l.position offset⟩ ⟨cause, l'.position offset⟩

/-- Two readings give one result, or the same fault. -/
inductive SameOutcome {α : Type} (S : Line → Line → Prop) :
    Except Fault α → Except Fault α → Prop where
  | ok (a : α) : SameOutcome S (.ok a) (.ok a)
  | error {fault fault' : Fault} (h : SameFault S fault fault') :
      SameOutcome S (.error fault) (.error fault')

section Pairing

variable {α : Type} {S : Line → Line → Prop} {l l' : Line} {ls ls' : List Line}

/-- Where one is read well, the other is read as the same. -/
theorem SameOutcome.eq_ok {a : α} {e : Except Fault α} (h : SameOutcome S (.ok a) e) :
    e = .ok a := by
  cases h
  rfl

/-- Where one has a fault, the other has the same. -/
theorem SameOutcome.exists_error {fault : Fault} {e : Except Fault α}
    (h : SameOutcome S (.error fault) e) : ∃ fault', e = .error fault' ∧ SameFault S fault fault' := by
  cases h with
  | error h => exact ⟨_, rfl, h⟩

/-- A head gives paired lines the same role, or the same fault. -/
theorem headRole_paired (h : S l l') (head : Head) :
    SameOutcome S (headRole l head) (headRole l' head) := by
  unfold headRole
  split
  · split
    · exact .ok _
    · exact .error (.at h _ _)
  · split
    all_goals exact .ok _

/-- What a line says does not depend on where it stands. -/
theorem role_paired (hS : Pairing S) (h : S l l') (depth : Nat) :
    SameOutcome S (role depth l) (role depth l') := by
  unfold role tagRole
  rw [hS.kind h, hS.text h]
  cases l.kind with
  | doctype =>
    dsimp only
    split
    · exact .error (.at h _ _)
    · exact .ok _
  | pipe => exact .ok _
  | tag =>
    dsimp only
    split
    · exact .error (.at h _ _)
    · cases Head.read l.text.toList with
      | error fault => exact .error (.at h _ _)
      | ok head => exact headRole_paired h head
  | text => exact .ok _

/-- Paired lines have the same role. -/
theorem role_ok_paired (hS : Pairing S) (h : S l l') {depth : Nat} {r : Role}
    (hrole : role depth l = .ok r) : role depth l' = .ok r := by
  have hsame := role_paired hS h depth
  rw [hrole] at hsame
  exact hsame.eq_ok

/-- Paired lines have the same fault, if they have one. -/
theorem role_error_paired (hS : Pairing S) (h : S l l') {depth : Nat} {fault : Fault}
    (hrole : role depth l = .error fault) :
    ∃ fault', role depth l' = .error fault' ∧ SameFault S fault fault' := by
  have hsame := role_paired hS h depth
  rw [hrole] at hsame
  exact hsame.exists_error

/-- Paired lines have paired runs of deeper lines below them, and what is beyond
these runs is paired too. -/
theorem below_paired (hS : Pairing S) (h : S l l') (hls : List.Forall₂ S ls ls') :
    List.Forall₂ S (below l ls) (below l' ls') ∧ List.Forall₂ S (beyond l ls) (beyond l' ls') := by
  unfold below beyond
  induction hls with
  | nil => exact ⟨.nil, .nil⟩
  | @cons m m' ms ms' hm hms ih =>
    rw [List.takeWhile_cons, List.takeWhile_cons, List.dropWhile_cons, List.dropWhile_cons]
    simp only [decide_eq_true_eq, hS.deeper h hm]
    -- both runs go on, or both end here
    split
    · exact ⟨.cons hm ih.1, ih.2⟩
    · exact ⟨.nil, .cons hm hms⟩

/-- A block of text does not depend on how its lines are laid out. -/
theorem blockText_paired (hS : Pairing S) (hls : List.Forall₂ S ls ls') :
    blockText ls' = blockText ls := by
  have htexts : ls'.map (fun l => l.text.toList) = ls.map fun l => l.text.toList := by
    induction hls with
    | nil => rfl
    | cons hm _ ih => rw [List.map_cons, List.map_cons, hS.text hm, ih]
  unfold blockText
  rw [htexts]

/-- **Paired lines nest alike.** -/
theorem forest_paired (hS : Pairing S) (hls : List.Forall₂ S ls ls') (depth : Nat)
    (done : List Node) : SameOutcome S (forest depth done ls) (forest depth done ls') := by
  -- paired lines have one role, so both sides take the same turn at every line, and what
  -- each turn goes on with is paired again
  fun_induction forest depth done ls generalizing ls' with
  | case1 depth done =>
    cases hls
    rw [forest]
    exact .ok _
  | case2 depth done line rest fault hrole =>
    obtain ⟨line', rest', hline, -, rfl⟩ := List.forall₂_cons_left_iff.mp hls
    obtain ⟨fault', hrole', hfault⟩ := role_error_paired hS hline hrole
    rw [forest, hrole']
    exact .error hfault
  | case3 depth done line rest node hrole ih =>
    obtain ⟨line', rest', hline, hrest, rfl⟩ := List.forall₂_cons_left_iff.mp hls
    rw [forest, role_ok_paired hS hline hrole]
    exact ih hrest
  | case4 depth done line rest hrole ih =>
    obtain ⟨line', rest', hline, hrest, rfl⟩ := List.forall₂_cons_left_iff.mp hls
    obtain ⟨hbelow, hbeyond⟩ := below_paired hS hline hrest
    rw [forest, role_ok_paired hS hline hrole]
    simp only [blockText_paired hS hbelow]
    exact ih hbeyond
  | case5 depth done line rest tag hrole block =>
    rename_i children ih
    obtain ⟨line', rest', hline, hrest, rfl⟩ := List.forall₂_cons_left_iff.mp hls
    obtain ⟨hbelow, hbeyond⟩ := below_paired hS hline hrest
    have hempty : (below line' rest').isEmpty = (below line rest).isEmpty := by
      rw [Bool.eq_iff_iff, List.isEmpty_iff_length_eq_zero, List.isEmpty_iff_length_eq_zero,
        hbelow.length_eq]
    rw [forest, role_ok_paired hS hline hrole]
    simp only [blockText_paired hS hbelow, hempty]
    exact ih hbeyond
  | case6 depth done line rest tag lead hrole fault hinner ih =>
    obtain ⟨line', rest', hline, hrest, rfl⟩ := List.forall₂_cons_left_iff.mp hls
    have hchildren := ih (below_paired hS hline hrest).1
    rw [hinner] at hchildren
    obtain ⟨fault', hinner', hfault⟩ := hchildren.exists_error
    rw [forest, role_ok_paired hS hline hrole]
    simp only [hinner']
    exact .error hfault
  | case7 depth done line rest tag lead hrole children hinner ih₁ ih₂ =>
    obtain ⟨line', rest', hline, hrest, rfl⟩ := List.forall₂_cons_left_iff.mp hls
    obtain ⟨hbelow, hbeyond⟩ := below_paired hS hline hrest
    have hchildren := ih₁ hbelow
    rw [hinner] at hchildren
    rw [forest, role_ok_paired hS hline hrole]
    simp only [hchildren.eq_ok]
    exact ih₂ hbeyond

/-- Lines that are exchanged one by one. -/
theorem pairing_map {f : Line → Line} (hkind : ∀ l, (f l).kind = l.kind)
    (htext : ∀ l, (f l).text = l.text)
    (hdeeper : ∀ l m, (f l).indent < (f m).indent ↔ l.indent < m.indent) :
    Pairing fun l l' => l' = f l where
  kind h := by rw [h, hkind]
  text h := by rw [h, htext]
  deeper hl hm := by rw [hl, hm, hdeeper]

/-- A forest is the same after a change of its lines that keeps them paired. -/
theorem forest_map {f : Line → Line} (hf : Pairing fun l l' => l' = f l) (depth : Nat)
    (done : List Node) (ls : List Line) :
    SameOutcome (fun l l' => l' = f l) (forest depth done ls) (forest depth done (ls.map f)) := by
  apply forest_paired hf
  rw [List.forall₂_map_right_iff, List.forall₂_same]
  exact fun l _ => rfl

end Pairing

/-! ## §2. Renamed indentations. -/

/-- A line with its indentation renamed. -/
def reindent (f : Nat → Nat) (line : Line) : Line := { line with indent := f line.indent }

/-- Lines that are indented by a strictly monotone rule stay paired. -/
theorem pairing_reindent {f : Nat → Nat} (hf : StrictMono f) :
    Pairing fun l l' => l' = reindent f l :=
  pairing_map (fun _ => rfl) (fun _ => rfl) fun _ _ => hf.lt_iff_lt

/-- Only the order of the indentations matters. -/
theorem forest_reindent {f : Nat → Nat} (hf : StrictMono f) (depth : Nat) (done : List Node)
    (ls : List Line) : forest depth done (ls.map (reindent f)) = forest depth done ls := by
  have hsame := forest_map (pairing_reindent hf) depth done ls
  cases hforest : forest depth done ls with
  | ok nodes =>
    rw [hforest] at hsame
    exact hsame.eq_ok
  | error fault =>
    rw [hforest] at hsame
    obtain ⟨fault', hfault', hplace⟩ := hsame.exists_error
    rw [hfault']
    -- a position is counted in the text of its line, and not from its indentation
    obtain @⟨l, _, rfl, cause, offset⟩ := hplace
    rfl

/-! ## §3. Blank lines, and blanks behind lines. -/

/-- One edit of the lines of a source: a blank line is put in, or blanks are put
behind a line. -/
inductive Edit : List (List Char) → List (List Char) → Prop where
  | blankLine (above under : List (List Char)) (l : List Char)
      (h : ∀ c ∈ l, isBlank c = true) : Edit (above ++ under) (above ++ l :: under)
  | trailing (above under : List (List Char)) (l b : List Char)
      (h : ∀ c ∈ b, isBlank c = true) : Edit (above ++ l :: under) (above ++ (l ++ b) :: under)

/-- The lines of one source come from those of the other by any number of edits,
done and undone. -/
def SameInk (s t : String) : Prop :=
  Relation.EqvGen Edit (lines s.toList) (lines t.toList)

/-- The lines that are not blank, without the blanks behind them. -/
def ink (pieces : List (List Char)) : List (List Char) :=
  (pieces.filter fun piece => !(trim piece).isEmpty).map trimRight

/-- The ink of lines in a row. -/
theorem ink_append (a b : List (List Char)) : ink (a ++ b) = ink a ++ ink b := by
  unfold ink
  rw [List.filter_append, List.map_append]

/-- A blank line has no ink. -/
theorem ink_cons_of_blank {l : List Char} (h : trim l = []) (ls : List (List Char)) :
    ink (l :: ls) = ink ls := by
  unfold ink
  rw [List.filter_cons_of_neg (by simp [h])]

/-- A line that is not blank keeps its ink, but for the blanks at its end. -/
theorem ink_cons_of_inked {l : List Char} (h : trim l ≠ []) (ls : List (List Char)) :
    ink (l :: ls) = trimRight l :: ink ls := by
  unfold ink
  rw [List.filter_cons_of_pos (by simp [h]), List.map_cons]

/-- An edit does not touch the ink. -/
theorem ink_of_edit {a b : List (List Char)} (h : Edit a b) : ink a = ink b := by
  cases h with
  | blankLine above under l h =>
    rw [ink_append, ink_append, ink_cons_of_blank (trim_eq_nil_iff.mpr h)]
  | trailing above under l b h =>
    have htrim : trim (l ++ b) = trim l := trim_append_blank h
    rw [ink_append, ink_append]
    -- blanks behind a line are not ink, whether the line has any or not
    by_cases hl : trim l = []
    · rw [ink_cons_of_blank hl, ink_cons_of_blank (htrim.trans hl)]
    · rw [ink_cons_of_inked hl, ink_cons_of_inked (htrim ▸ hl), trimRight_append_blank h]

/-- Edits keep the ink. -/
theorem ink_of_eqvGen {a b : List (List Char)} (h : Relation.EqvGen Edit a b) : ink a = ink b := by
  induction h with
  | rel a b hedit => exact ink_of_edit hedit
  | refl a => rfl
  | symm a b _ ih => exact ih.symm
  | trans a b c _ _ ih₁ ih₂ => exact ih₁.trans ih₂

/-! ### Carriage returns. -/

/-- An edit may be made further down. -/
theorem Edit.cons {a b : List (List Char)} (h : Edit a b) (l : List Char) :
    Edit (l :: a) (l :: b) := by
  cases h with
  | blankLine above under blank h => exact .blankLine (l :: above) under blank h
  | trailing above under m b h => exact .trailing (l :: above) under m b h

/-- So may several edits. -/
theorem eqvGen_edit_cons {a b : List (List Char)} (h : Relation.EqvGen Edit a b) (l : List Char) :
    Relation.EqvGen Edit (l :: a) (l :: b) := by
  induction h with
  | rel a b hedit => exact .rel _ _ (hedit.cons l)
  | refl a => exact .refl _
  | symm a b _ ih => exact .symm _ _ ih
  | trans a b c _ _ ih₁ ih₂ => exact .trans _ _ _ ih₁ ih₂

/-- Every newline with a carriage return in front of it. -/
def withReturns (cs : List Char) : List Char :=
  cs.flatMap fun c => if c = '\n' then ['\r', '\n'] else [c]

/-- A line as it is, or with a carriage return put behind it. -/
def Returned (l l' : List Char) : Prop := l' = l ∨ l' = l ++ ['\r']

/-- Carriage returns stand at the ends of lines. -/
theorem lines_withReturns (cs : List Char) :
    List.Forall₂ Returned (lines cs) (lines (withReturns cs)) := by
  induction cs with
  | nil => exact .cons (.inl rfl) .nil
  | cons c cs ih =>
    have hcons : withReturns (c :: cs)
        = (if c = '\n' then ['\r', '\n'] else [c]) ++ withReturns cs := List.flatMap_cons
    rw [hcons]
    by_cases hc : c = '\n'
    · -- the return is all of the line that the newline ends; more may be put in front of it
      have hreturn : lines ('\r' :: '\n' :: withReturns cs) = ['\r'] :: lines (withReturns cs) :=
        lines_cons_of_ne (by decide) (lines_newline_cons _)
      rw [if_pos hc, hc, lines_newline_cons]
      show List.Forall₂ Returned _ (lines ('\r' :: '\n' :: withReturns cs))
      rw [hreturn]
      exact .cons (.inr rfl) ih
    · obtain ⟨l, ls, hl⟩ := exists_lines_eq cs
      obtain ⟨l', ls', hl'⟩ := exists_lines_eq (withReturns cs)
      rw [hl, hl'] at ih
      obtain ⟨hfirst, hrest⟩ := List.forall₂_cons.mp ih
      rw [if_neg hc, List.singleton_append, lines_cons_of_ne hc hl, lines_cons_of_ne hc hl']
      refine .cons ?_ hrest
      cases hfirst with
      | inl h => exact .inl (by rw [h])
      | inr h => exact .inr (by rw [h, List.cons_append])

/-- A carriage return at the end of a line is an edit. -/
theorem eqvGen_edit_of_returned {a b : List (List Char)} (h : List.Forall₂ Returned a b) :
    Relation.EqvGen Edit a b := by
  induction h with
  | nil => exact .refl _
  | @cons l l' ls ls' hline _ ih =>
    -- first the lines below, then this one
    refine .trans _ _ _ (eqvGen_edit_cons ih l) ?_
    cases hline with
    | inl h =>
      rw [h]
      exact .refl _
    | inr h =>
      rw [h]
      exact .rel _ _ (.trailing [] ls' l ['\r'] (List.forall_mem_singleton.mpr (by decide)))

/-- A source with every newline turned into a carriage return and a newline. -/
def crlf (s : String) : String := String.ofList (withReturns s.toList)

/-- A text with carriage returns has the same ink. -/
theorem sameInk_crlf (s : String) : SameInk s (crlf s) := by
  unfold SameInk crlf
  rw [String.toList_ofList]
  exact eqvGen_edit_of_returned (lines_withReturns s.toList)

/-! ### The lines of edited sources. -/

/-- Blanks at the end of a piece do not matter to the line that is read from it. -/
theorem ofPiece?_append_blank {b : List Char} (hb : ∀ c ∈ b, isBlank c = true)
    (piece : List Char) (k : Nat) : Line.ofPiece? (piece ++ b) k = Line.ofPiece? piece k := by
  induction b generalizing piece with
  | nil => rw [List.append_nil]
  | cons c b ih =>
    obtain ⟨hc, hb⟩ := List.forall_mem_cons.mp hb
    rw [List.append_cons, ih hb, ofPiece?_concat_blank hc]

/-- Nor does it matter if they are trimmed. -/
theorem ofPiece?_trimRight (piece : List Char) (k : Nat) :
    Line.ofPiece? (trimRight piece) k = Line.ofPiece? piece k := by
  obtain ⟨b, hb, hpiece⟩ := exists_blank_trimRight piece
  conv_rhs => rw [hpiece, ofPiece?_append_blank hb]

/-- A line without its number. -/
def unnumbered (line : Line) : Line := { line with number := 0 }

/-- Without their numbers, lines agree in all else. -/
theorem unnumbered_eq_iff {l l' : Line} :
    unnumbered l = unnumbered l' ↔
      l.kind = l'.kind ∧ l.indent = l'.indent ∧ l.text = l'.text ∧ l.column = l'.column := by
  simp [unnumbered]

/-- The number of a line does not matter to what is read. -/
theorem ofPiece?_unnumbered (piece : List Char) (k : Nat) :
    (Line.ofPiece? piece k).map unnumbered = Line.ofPiece? piece 0 := by
  rw [ofPiece?_eq, ofPiece?_eq, Option.map_map]
  rfl

/-- But for their numbers, the lines of pieces are those of the ink. -/
theorem map_unnumbered_numbered (k : Nat) (pieces : List (List Char)) :
    (numbered k pieces).map unnumbered = (ink pieces).filterMap (Line.ofPiece? · 0) := by
  induction pieces generalizing k with
  | nil => rfl
  | cons piece pieces ih =>
    rw [numbered_cons, List.map_append, ih (k + 1), ← Option.toList_map, ofPiece?_unnumbered]
    by_cases hblank : trim piece = []
    · rw [ink_cons_of_blank hblank, ofPiece?_eq_none_iff.mpr hblank]
      rfl
    · rw [ink_cons_of_inked hblank, List.filterMap_cons, ofPiece?_trimRight]
      cases Line.ofPiece? piece 0 with
      | none => rfl
      | some line => rfl

/-- Numbers do not matter where lines are moved to the left. -/
theorem map_unnumbered_flushed (ls : List Line) :
    (flushed ls).map unnumbered = flushed (ls.map unnumbered) := by
  cases ls <;> rfl

/-- **Edited sources have the same lines**, but for their numbers. -/
theorem scan_of_sameInk {s t : String} (h : SameInk s t) :
    (Line.scan s).map unnumbered = (Line.scan t).map unnumbered := by
  rw [scan_eq_flushed, scan_eq_flushed, map_unnumbered_flushed, map_unnumbered_flushed,
    map_unnumbered_numbered, map_unnumbered_numbered, ink_of_eqvGen h]

/-- Two lines that stand at the same place among the lines of their sources, and
are the same but for their numbers. -/
structure Corresponding (s t : String) (l l' : Line) : Prop where
  same : unnumbered l = unnumbered l'
  place : ∃ i : Nat, (Line.scan s)[i]? = some l ∧ (Line.scan t)[i]? = some l'

/-- Lines that correspond are paired. -/
theorem pairing_corresponding (s t : String) : Pairing (Corresponding s t) where
  kind h := (unnumbered_eq_iff.mp h.same).1.symm
  text h := (unnumbered_eq_iff.mp h.same).2.2.1.symm
  deeper hl hm := by
    rw [(unnumbered_eq_iff.mp hl.same).2.1, (unnumbered_eq_iff.mp hm.same).2.1]

/-- **Texts of the same ink** have corresponding lines. -/
theorem scan_corresponding {s t : String} (h : SameInk s t) :
    List.Forall₂ (Corresponding s t) (Line.scan s) (Line.scan t) := by
  have hscan := scan_of_sameInk h
  have hlength : (Line.scan s).length = (Line.scan t).length := by
    simpa using congrArg List.length hscan
  refine List.forall₂_iff_get.mpr ⟨hlength, fun i hi hi' => ⟨?_, i, ?_, ?_⟩⟩
  · have hget := congrArg (·[i]?) hscan
    simpa [List.getElem?_eq_getElem hi, List.getElem?_eq_getElem hi'] using hget
  · exact List.getElem?_eq_getElem hi
  · exact List.getElem?_eq_getElem hi'

/-! ## §4. Reading edited sources. -/

/-- Two line numbers are those of one line of ink: it comes at the same place among
the lines that are not blank, and differs at most in the blanks behind it. -/
def SameLine (s t : String) (n n' : Int) : Prop :=
  ∃ (i : Nat) (p p' : List Char × Nat), (inkedPieces s)[i]? = some p
    ∧ (inkedPieces t)[i]? = some p' ∧ n = p.2 ∧ n' = p'.2 ∧ trimRight p.1 = trimRight p'.1

/-- Two sources read alike: they have one forest, or both have a fault with the same
cause at the same column of the same line. -/
inductive ReadAlike (s t : String) : Prop where
  | page (nodes : List Node) (left : parse s = .ok nodes) (right : parse t = .ok nodes)
  | fault (f f' : Fault) (left : parse s = .error (.malformed f s))
      (right : parse t = .error (.malformed f' t)) (cause : f.cause = f'.cause)
      (column : f.position.column = f'.position.column)
      (line : SameLine s t f.position.line f'.position.line)

/-- The lines of a source have the numbers of its pieces that are not blank. -/
theorem exists_inkedPiece {source : String} {i : Nat} {line : Line}
    (h : (Line.scan source)[i]? = some line) :
    ∃ p, (inkedPieces source)[i]? = some p ∧ line.number = p.2 := by
  have hscan : (Line.scan source).map (fun l => (l.text.toList, l.number))
      = (inkedPieces source).map fun p => (trim p.1, p.2) := by
    rw [scan_eq_flushed, map_flushed, map_numbered]
    rfl
  have hget := congrArg (·[i]?) hscan
  simp only [List.getElem?_map, h, Option.map_some] at hget
  obtain ⟨p, hp, hline⟩ := Option.map_eq_some_iff.mp hget.symm
  exact ⟨p, hp, (congrArg Prod.snd hline).symm⟩

/-- The pieces that are not blank hold the ink of the text. -/
theorem map_inkedPieces (source : String) :
    (inkedPieces source).map (fun p => trimRight p.1) = ink (lines source.toList) := by
  have hpieces : (inkedPieces source).map Prod.fst
      = (lines source.toList).filter fun piece => !(trim piece).isEmpty := by
    unfold inkedPieces
    conv_rhs => rw [← List.zipIdx_map_fst 1 (lines source.toList), List.filter_map]
    rfl
  unfold ink
  rw [← hpieces, List.map_map]
  rfl

/-- Corresponding lines have the numbers of the same line of ink. -/
theorem Corresponding.sameLine {s t : String} (hink : SameInk s t) {l l' : Line}
    (h : Corresponding s t l l') : SameLine s t l.number l'.number := by
  obtain ⟨i, hl, hl'⟩ := h.place
  obtain ⟨p, hp, hnumber⟩ := exists_inkedPiece hl
  obtain ⟨p', hp', hnumber'⟩ := exists_inkedPiece hl'
  refine ⟨i, p, p', hp, hp', by rw [hnumber], by rw [hnumber'], ?_⟩
  have hsame := ink_of_eqvGen hink
  rw [← map_inkedPieces, ← map_inkedPieces] at hsame
  have hget := congrArg (·[i]?) hsame
  simpa [hp, hp'] using hget

/-- A fault moves with its line, and within the line not at all. -/
theorem sameFault_corresponding {s t : String} (hink : SameInk s t) {f f' : Fault}
    (h : SameFault (Corresponding s t) f f') :
    f.cause = f'.cause ∧ f.position.column = f'.position.column
      ∧ SameLine s t f.position.line f'.position.line := by
  obtain @⟨l, l', hl, cause, offset⟩ := h
  obtain ⟨-, -, -, hcolumn⟩ := unnumbered_eq_iff.mp hl.same
  refine ⟨rfl, ?_, hl.sameLine hink⟩
  show (l.column : Int) + offset = l'.column + offset
  rw [hcolumn]

/-- **Layout that means nothing does not show.**  Sources whose lines differ by blank
lines and by blanks behind lines, as in particular a source and the same source with
carriage returns, have one forest, or the same fault at the same column of the same
line.  And lines nest as before, faults included, when their indentations are renamed
in any way that keeps their order. -/
theorem parse_ignores_layout :
    (∀ s t, SameInk s t → check s = .ok () → check t = .ok () → ReadAlike s t)
      ∧ (∀ s, SameInk s (crlf s))
      ∧ ∀ f, StrictMono f → ∀ depth done ls,
          forest depth done (ls.map (reindent f)) = forest depth done ls := by
  refine ⟨fun s t h hs ht => ?_, sameInk_crlf,
    fun f hf depth done ls => forest_reindent hf depth done ls⟩
  have hsame := forest_paired (pairing_corresponding s t) (scan_corresponding h) 1 []
  cases hforest : forest 1 [] (Line.scan s) with
  | ok nodes =>
    rw [hforest] at hsame
    exact .page nodes (parse_eq_ok_iff.mpr ⟨hs, hforest⟩) (parse_eq_ok_iff.mpr ⟨ht, hsame.eq_ok⟩)
  | error f =>
    rw [hforest] at hsame
    obtain ⟨f', hforest', hfault⟩ := hsame.exists_error
    obtain ⟨hcause, hcolumn, hline⟩ := sameFault_corresponding h hfault
    exact .fault f f' (parse_eq_malformed_iff.mpr ⟨hs, hforest, rfl⟩)
      (parse_eq_malformed_iff.mpr ⟨ht, hforest', rfl⟩) hcause hcolumn hline

/-- Three lines, the last of them without the name of a class. -/
def tightSource : String := "ul\n  li: a\n  b."

/-- The same lines with a blank line among them and blanks behind two of them. -/
def looseSource : String := "ul \n\n  li: a\n  b.\r"

theorem parse_ignores_layout_loose :
    ReadAlike tightSource looseSource
      ∧ ReadAlike tightSource (crlf tightSource)
      ∧ parse tightSource = .error (.malformed ⟨.classNameMissing, ⟨3, 5⟩⟩ tightSource)
      ∧ parse looseSource = .error (.malformed ⟨.classNameMissing, ⟨4, 5⟩⟩ looseSource)
      ∧ StrictMono (fun n => 4 * n + 1)
      ∧ forest 1 [] ((Line.scan tightSource).map (reindent fun n => 4 * n + 1))
          = .error ⟨.classNameMissing, ⟨3, 5⟩⟩ := by
  obtain ⟨hink, hcrlf, hdepth⟩ := parse_ignores_layout
  have htight : check tightSource = .ok () := by
    rw [check_eq_ok_iff]
    exact ⟨by decide, by decide, by rfl⟩
  have hloose : check looseSource = .ok () := by
    rw [check_eq_ok_iff]
    exact ⟨by decide, by decide, by rfl⟩
  have hreturns : check (crlf tightSource) = .ok () := by
    rw [check_eq_ok_iff]
    exact ⟨by decide, by decide, by rfl⟩
  have hsame : SameInk tightSource looseSource := by
    have hlines : lines tightSource.toList = ["ul".toList, "  li: a".toList, "  b.".toList] := by
      decide +kernel
    have hlines' : lines looseSource.toList
        = ["ul ".toList, [], "  li: a".toList, "  b.\r".toList] := by
      decide +kernel
    unfold SameInk
    rw [hlines, hlines']
    refine .trans _ _ _ (.rel _ _ (.trailing [] _ "ul".toList [' '] (by simp [isBlank_space]))) ?_
    refine .trans _ _ _ (.rel _ _ (.blankLine ["ul ".toList] _ [] (by simp))) ?_
    exact .rel _ _ (.trailing ["ul ".toList, [], "  li: a".toList] [] "  b.".toList ['\r']
      (List.forall_mem_singleton.mpr (by decide)))
  have hmono : StrictMono (fun n : Nat => 4 * n + 1) := by
    intro m n hmn
    show 4 * m + 1 < 4 * n + 1
    omega
  have hforest : forest 1 [] (Line.scan tightSource) = .error ⟨.classNameMissing, ⟨3, 5⟩⟩ := by
    decide +kernel
  refine ⟨hink _ _ hsame htight hloose, hink _ _ (hcrlf _) htight hreturns,
    parse_eq_malformed_iff.mpr ⟨htight, hforest, rfl⟩,
    parse_eq_malformed_iff.mpr ⟨hloose, by decide +kernel, rfl⟩, hmono, ?_⟩
  rw [hdepth _ hmono, hforest]

end Offside.Document
