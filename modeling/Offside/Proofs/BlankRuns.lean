/-
  Offside.Proofs.BlankRuns
  ────────────────────────
  The patterns of tidying, said on runs of blanks.

  The patterns are made of newlines with blanks between them, so a match lies in
  one run of blanks.  What a repeated part gives back is looked at from the end of
  the run: the newline at which a match ends is the last one of the run, and the
  newline at which it begins is the first one.  So a run with three newlines or
  more shrinks to two (`spaced_eq_shrink`), and the edges of a text are cut at the
  last newline of its leading blanks and at the first one of its trailing blanks
  (`cut_eq`).
-/
import Offside.Markup.Tidy
import Offside.Proofs.Text

namespace Offside.Text

/-! ## §1. Giving back. -/

section GiveBack

variable {fit : List Char → Option Nat} {held after rest : List Char}

/-- If the rest fits, nothing is given back. -/
theorem giveBack_of_some {n : Nat} (h : fit rest = some n) (held : List Char) :
    giveBack fit held rest = some (held.length + n) := by
  cases held with
  | nil => rw [giveBack, h, List.length_nil, Nat.zero_add]
  | cons c held =>
    rw [giveBack, h]
    rfl

/-- Characters are given back as long as the rest does not fit. -/
theorem giveBack_append (h : ∀ back, back <:+ after → back ≠ after → fit (back ++ rest) = none)
    (held : List Char) :
    giveBack fit (after.reverse ++ held) rest = giveBack fit held (after ++ rest) := by
  induction after using List.reverseRecOn generalizing rest with
  | nil => rfl
  | append_singleton init c ih =>
    have hnone : fit rest = none := h [] (List.nil_suffix) (by simp)
    rw [List.reverse_append, List.reverse_singleton, List.append_assoc, List.singleton_append,
      giveBack, hnone]
    show giveBack fit (init.reverse ++ held) (c :: rest) = _
    rw [ih, List.append_assoc, List.singleton_append]
    intro back hback hne
    rw [← List.singleton_append, ← List.append_assoc]
    refine h (back ++ [c]) ?_ (by simpa using hne)
    obtain ⟨front, rfl⟩ := hback
    exact ⟨front, by simp⟩

/-- If nothing ever fits, all is given back in vain. -/
theorem giveBack_eq_none (h : ∀ back, back <:+ after → fit (back ++ rest) = none) :
    giveBack fit after.reverse rest = none := by
  have hall := giveBack_append (fun back hback _ => h back hback) []
  rw [List.append_nil] at hall
  rw [hall]
  exact h after List.suffix_rfl

/-- The first place from the end at which the rest may fit. -/
theorem giveBack_to {c : Char} (h : ∀ back, back <:+ after → fit (back ++ rest) = none)
    (held : List Char) :
    giveBack fit ((held ++ c :: after).reverse) rest
      = giveBack fit held.reverse (c :: (after ++ rest)) := by
  rw [List.reverse_append, List.reverse_cons, List.append_assoc, List.singleton_append,
    giveBack_append (fun back hback _ => h back hback), giveBack, h after List.suffix_rfl]

end GiveBack

/-! ## §2. Replacing. -/

section Replace

variable {patterns : List Pattern} {new : List Char}

/-- What is done is not looked at again. -/
theorem replaceFrom_done (start : Bool) (skip : Nat) (done cs : List Char) :
    replaceFrom patterns new start skip done cs
      = done.reverse ++ replaceFrom patterns new start skip [] cs := by
  induction cs generalizing start skip done with
  | nil => simp [replaceFrom]
  | cons c cs ih =>
    cases skip with
    | succ skip => exact ih false skip done
    | zero =>
      unfold replaceFrom
      simp only
      split
      · rw [ih, ih _ _ (new.reverse ++ [])]
        simp
      · rw [ih, ih _ _ [c]]
        simp

/-- Skipping is leaving out. -/
theorem replaceFrom_skip (skip : Nat) (cs : List Char) :
    replaceFrom patterns new false skip [] cs
      = replaceFrom patterns new false 0 [] (cs.drop skip) := by
  induction cs generalizing skip with
  | nil => simp [replaceFrom]
  | cons c cs ih =>
    cases skip with
    | zero => rfl
    | succ skip => exact ih skip

/-- Where nothing matches, the character stays. -/
theorem replaceFrom_of_none {start : Bool} {c : Char} {cs : List Char}
    (h : patterns.findSome? (fun pattern => pattern.fit? start (c :: cs)) = none) :
    replaceFrom patterns new start 0 [] (c :: cs)
      = c :: replaceFrom patterns new false 0 [] cs := by
  conv_lhs => unfold replaceFrom
  simp only [h]
  rw [replaceFrom_done]
  rfl

/-- **A match** is replaced, and the work goes on behind it. -/
theorem replaceFrom_of_some {start : Bool} {taken cs : List Char} (hne : taken ≠ [])
    (h : patterns.findSome? (fun pattern => pattern.fit? start (taken ++ cs))
      = some taken.length) :
    replaceFrom patterns new start 0 [] (taken ++ cs)
      = new ++ replaceFrom patterns new false 0 [] cs := by
  cases taken with
  | nil => exact absurd rfl hne
  | cons c taken =>
    rw [List.cons_append] at h ⊢
    conv_lhs => unfold replaceFrom
    simp only [h, List.length_cons]
    rw [replaceFrom_done, replaceFrom_skip, List.drop_left']
    · simp
    · rfl

/-- Whether all of the text is left matters only if the same does not match then. -/
theorem replaceFrom_start {cs : List Char}
    (h : patterns.findSome? (fun pattern => pattern.fit? true cs)
      = patterns.findSome? fun pattern => pattern.fit? false cs) :
    replaceFrom patterns new true 0 [] cs = replaceFrom patterns new false 0 [] cs := by
  cases cs with
  | nil => rfl
  | cons c cs =>
    unfold replaceFrom
    rw [h]

end Replace

end Offside.Text

namespace Offside.Markup

open Text

/-! ## §3. Newlines in a run of blanks. -/

/-- A newline is blank. -/
theorem not_newline_of_stops {cs : List Char} (h : Stops isBlank cs) : Stops isNewline cs := by
  intro c hc
  have hdark := h c hc
  unfold isNewline
  rw [beq_eq_false_iff_ne]
  rintro rfl
  rw [isBlank_newline] at hdark
  exact absurd hdark (by decide)

/-- What has no newline in it does not begin with one, whatever is behind it. -/
theorem stops_newline_append {a b : List Char} (ha : '\n' ∉ a) (hb : Stops isNewline b) :
    Stops isNewline (a ++ b) := by
  refine stops_append ?_ hb
  intro c hc
  unfold isNewline
  rw [beq_eq_false_iff_ne]
  rintro rfl
  exact ha (List.mem_of_mem_head? hc)

section Fit

variable {atEnd : Bool} {parts : List Part} {run b : List Char}

/-- A newline is not found where there is none. -/
theorem fit_newline_of_stops {cs : List Char} (h : Stops isNewline cs) :
    fitParts atEnd (.one isNewline :: parts) cs = none := by
  cases cs with
  | nil => rfl
  | cons c cs =>
    rw [stops_cons] at h
    rw [fitParts, h]
    rfl

/-- Nor is it found behind anything that is given back without one. -/
theorem fit_newline_suffix {after : List Char} (hafter : '\n' ∉ after) (hb : Stops isBlank b)
    (back : List Char) (hback : back <:+ after) :
    fitParts atEnd (.one isNewline :: parts) (back ++ b) = none :=
  fit_newline_of_stops
    (stops_newline_append (fun h => hafter (hback.subset h)) (not_newline_of_stops hb))

/-- A newline is taken where there is one. -/
theorem fit_newline (cs : List Char) :
    fitParts atEnd (.one isNewline :: parts) ('\n' :: cs)
      = (fitParts atEnd parts cs).map (· + 1) := rfl

/-- Repeated blanks take a whole run at first. -/
theorem fit_blanks (hrun : ∀ c ∈ run, isBlank c = true) (hb : Stops isBlank b) :
    fitParts atEnd (.many isBlank :: parts) (run ++ b)
      = giveBack (fitParts atEnd parts) run.reverse b := by
  rw [fitParts, takeWhile_run hrun hb, dropWhile_run hrun hb]

/-- There is no match up to a newline in a run without one. -/
theorem fit_blanks_none (hrun : ∀ c ∈ run, isBlank c = true) (hb : Stops isBlank b)
    (hnone : '\n' ∉ run) :
    fitParts atEnd (.many isBlank :: .one isNewline :: parts) (run ++ b) = none := by
  rw [fit_blanks hrun hb]
  exact giveBack_eq_none (fit_newline_suffix hnone hb)

/-- **Up to a newline** means up to the last newline of the run. -/
theorem fit_blanks_newline {before after : List Char}
    (hrun : ∀ c ∈ before ++ '\n' :: after, isBlank c = true) (hb : Stops isBlank b)
    (hafter : '\n' ∉ after) :
    fitParts false [.many isBlank, .one isNewline] (before ++ '\n' :: after ++ b)
      = some (before.length + 1) := by
  rw [fit_blanks hrun hb, giveBack_to (fit_newline_suffix hafter hb),
    giveBack_of_some (n := 1), List.length_reverse]
  rfl

end Fit

/-- Characters of a text without newlines are none. -/
theorem bne_newline {cs : List Char} (h : '\n' ∉ cs) : ∀ c ∈ cs, (c != '\n') = true := by
  intro c hc
  rw [bne_iff_ne]
  rintro rfl
  exact h hc

/-- A newline in a run, and none behind it. -/
theorem exists_last_newline {run : List Char} (h : '\n' ∈ run) :
    ∃ before after, run = before ++ '\n' :: after ∧ '\n' ∉ after := by
  obtain ⟨after, before, hsplit, hafter⟩ := List.eq_append_cons_of_mem (List.mem_reverse.mpr h)
  refine ⟨before.reverse, after.reverse, ?_, by simpa using hafter⟩
  rw [← List.reverse_reverse run, hsplit]
  simp

/-! ## §4. Runs of blanks. -/

/-- A run of blanks with three newlines or more keeps two of them, and what
stands before the first and after the last newline. -/
def shrinkRun (run : List Char) : List Char :=
  if run.count '\n' < 3 then run
  else
    let before := run.takeWhile (· != '\n')
    let after := (run.reverse.takeWhile (· != '\n')).reverse
    before ++ '\n' :: '\n' :: after

/-- The text cut into runs that are all blank or all not blank. -/
def runs (cs : List Char) : List (List Char) :=
  cs.splitBy fun a b => isBlank a == isBlank b

/-- Every run of blanks shrunk. -/
def shrink (cs : List Char) : List Char := (runs cs).flatMap shrinkRun

section BlankRun

variable {run b : List Char}

/-- One newline is not enough for two. -/
theorem fit_two_none {back after : List Char} (hback : '\n' ∉ back) (hafter : '\n' ∉ after)
    (hblank : ∀ c ∈ after, isBlank c = true) (hb : Stops isBlank b) :
    fitParts false [.one isNewline, .many isBlank, .one isNewline] (back ++ '\n' :: (after ++ b))
      = none := by
  cases back with
  | nil => rw [List.nil_append, fit_newline, fit_blanks_none hblank hb hafter, Option.map_none]
  | cons c back =>
    apply fit_newline_of_stops
    rw [List.cons_append, stops_cons, isNewline, beq_eq_false_iff_ne]
    rintro rfl
    exact hback List.mem_cons_self

/-- Behind a newline, a run with less than two more does not match. -/
theorem fit_behind_none (hrun : ∀ c ∈ run, isBlank c = true) (hb : Stops isBlank b)
    (hfew : run.count '\n' < 2) :
    fitParts false [.many isBlank, .one isNewline, .many isBlank, .one isNewline] (run ++ b)
      = none := by
  by_cases hmem : '\n' ∈ run
  · obtain ⟨before, after, rfl, hafter⟩ := exists_last_newline hmem
    have hbefore : '\n' ∉ before := by
      rw [List.count_append, List.count_cons_self] at hfew
      exact List.count_eq_zero.mp (by omega)
    have hblank : ∀ c ∈ after, isBlank c = true := fun c hc => hrun c (by simp [hc])
    -- the last newline is no match, because nothing is behind it, and no other is left
    rw [fit_blanks hrun hb, giveBack_to (fit_newline_suffix hafter hb)]
    apply giveBack_eq_none
    intro back hback
    exact fit_two_none (fun h => hbefore (hback.subset h)) hafter hblank hb
  · exact fit_blanks_none hrun hb hmem

/-- Behind a newline, a run with two more or more matches up to its last one. -/
theorem fit_behind_some {before mid after : List Char}
    (hrun : ∀ c ∈ before ++ '\n' :: mid ++ '\n' :: after, isBlank c = true) (hb : Stops isBlank b)
    (hmid : '\n' ∉ mid) (hafter : '\n' ∉ after) :
    fitParts false [.many isBlank, .one isNewline, .many isBlank, .one isNewline]
        (before ++ '\n' :: mid ++ '\n' :: after ++ b)
      = some (before ++ '\n' :: mid ++ ['\n']).length := by
  have hblank : ∀ c ∈ after, isBlank c = true := fun c hc => hrun c (by simp [hc])
  have hlast : ∀ c ∈ mid ++ '\n' :: after, isBlank c = true := by
    intro c hc
    refine hrun c ?_
    rw [List.append_assoc, List.cons_append, List.mem_append, List.mem_cons]
    exact .inr (.inr hc)
  -- the last newline is given back, because another one must come behind it
  rw [fit_blanks hrun hb, giveBack_to (fit_newline_suffix hafter hb), giveBack_to]
  · have hfit : fitParts false [.one isNewline, .many isBlank, .one isNewline]
        ('\n' :: (mid ++ '\n' :: (after ++ b))) = some (mid.length + 1 + 1) := by
      have hend := fit_blanks_newline hlast hb hafter
      rw [List.append_assoc, List.cons_append] at hend
      rw [fit_newline, hend, Option.map_some]
    rw [giveBack_of_some hfit, List.length_reverse]
    simp [Nat.add_assoc]
  · intro back hback
    exact fit_two_none (fun h => hmid (hback.subset h)) hafter hblank hb

/-- A run of blanks may match anywhere. -/
theorem find_blankRun (start : Bool) (cs : List Char) :
    [blankRun].findSome? (fun pattern => pattern.fit? start cs)
      = fitParts false blankRun.parts cs := by
  simp [Pattern.fit?, blankRun]

/-- What does not match stays. -/
theorem spaced_of_none {c : Char} {cs : List Char}
    (h : fitParts false blankRun.parts (c :: cs) = none) :
    spaced (c :: cs) = c :: spaced cs := by
  unfold spaced replaceAll
  rw [replaceFrom_of_none ((find_blankRun true _).trans h), replaceFrom_start rfl]

/-- A text without newlines stays. -/
theorem spaced_append {a : List Char} (ha : '\n' ∉ a) (cs : List Char) :
    spaced (a ++ cs)
      = a ++ spaced cs := by
  induction a with
  | nil => rfl
  | cons c a ih =>
    rw [List.mem_cons, not_or] at ha
    have hnone : fitParts false blankRun.parts (c :: (a ++ cs)) = none := by
      apply fit_newline_of_stops
      rw [stops_cons, isNewline, beq_eq_false_iff_ne]
      exact Ne.symm ha.1
    rw [List.cons_append, spaced_of_none hnone, ih ha.2, List.cons_append]

/-- A run with less than three newlines stays. -/
theorem spaced_few (hrun : ∀ c ∈ run, isBlank c = true) (hb : Stops isBlank b)
    (hfew : run.count '\n' < 3) :
    spaced (run ++ b)
      = run ++ spaced b := by
  induction run with
  | nil => rfl
  | cons c run ih =>
    have hrest : ∀ d ∈ run, isBlank d = true := fun d hd => hrun d (List.mem_cons_of_mem _ hd)
    by_cases hc : c = '\n'
    · subst hc
      rw [List.count_cons_self] at hfew
      have hnone : fitParts false blankRun.parts ('\n' :: (run ++ b)) = none := by
        rw [blankRun, fit_newline, fit_behind_none hrest hb (by omega), Option.map_none]
      rw [List.cons_append, spaced_of_none hnone, ih hrest (by omega), List.cons_append]
    · rw [List.count_cons_of_ne hc] at hfew
      have hkept := spaced_append (a := [c]) (by simpa using Ne.symm hc) (run ++ b)
      rw [ih hrest hfew] at hkept
      exact hkept

/-- A run with three newlines: what is before the first of them, and behind the last. -/
theorem exists_three_newlines (h : ¬ run.count '\n' < 3) :
    ∃ front before mid after, run = front ++ '\n' :: (before ++ '\n' :: mid ++ '\n' :: after)
      ∧ '\n' ∉ front ∧ '\n' ∉ mid ∧ '\n' ∉ after := by
  obtain ⟨front, rest, rfl, hfront⟩ :=
    List.eq_append_cons_of_mem (List.count_pos_iff.mp (show 0 < run.count '\n' by omega))
  rw [List.count_append, List.count_cons_self, List.count_eq_zero.mpr hfront] at h
  obtain ⟨middle, after, rfl, hafter⟩ :=
    exists_last_newline (List.count_pos_iff.mp (show 0 < rest.count '\n' by omega))
  rw [List.count_append, List.count_cons_self, List.count_eq_zero.mpr hafter] at h
  obtain ⟨before, mid, rfl, hmid⟩ :=
    exists_last_newline (List.count_pos_iff.mp (show 0 < middle.count '\n' by omega))
  exact ⟨front, before, mid, after, rfl, hfront, hmid, hafter⟩

/-- A run with three newlines or more is matched at its first one, up to its last. -/
theorem spaced_many {front before mid after : List Char}
    (hrun : ∀ c ∈ before ++ '\n' :: mid ++ '\n' :: after, isBlank c = true) (hb : Stops isBlank b)
    (hfront : '\n' ∉ front) (hmid : '\n' ∉ mid) (hafter : '\n' ∉ after) :
    spaced
        (front ++ '\n' :: (before ++ '\n' :: mid ++ '\n' :: after) ++ b)
      = front ++ '\n' :: '\n' :: after ++ spaced b := by
  have hfit : fitParts false blankRun.parts
      ('\n' :: (before ++ '\n' :: mid ++ ['\n']) ++ (after ++ b))
        = some ('\n' :: (before ++ '\n' :: mid ++ ['\n'])).length := by
    have hbehind := fit_behind_some hrun hb hmid hafter
    have hglue : before ++ '\n' :: mid ++ ['\n'] ++ (after ++ b)
        = before ++ '\n' :: mid ++ '\n' :: after ++ b := by simp
    rw [List.cons_append, hglue, blankRun, fit_newline, hbehind, Option.map_some,
      List.length_cons]
  have hsplit : '\n' :: (before ++ '\n' :: mid ++ '\n' :: after) ++ b
      = '\n' :: (before ++ '\n' :: mid ++ ['\n']) ++ (after ++ b) := by simp
  have hmatch : spaced
      ('\n' :: (before ++ '\n' :: mid ++ ['\n']) ++ (after ++ b))
        = ['\n', '\n'] ++ spaced (after ++ b) := by
    unfold spaced replaceAll
    rw [replaceFrom_of_some (by simp) ((find_blankRun true _).trans hfit), replaceFrom_start rfl]
  rw [List.append_assoc, spaced_append hfront, hsplit, hmatch, spaced_append hafter]
  simp

/-- What is left of a run with three newlines. -/
theorem shrinkRun_many {front before mid after : List Char} (hfront : '\n' ∉ front)
    (hafter : '\n' ∉ after) :
    shrinkRun (front ++ '\n' :: (before ++ '\n' :: mid ++ '\n' :: after))
      = front ++ '\n' :: '\n' :: after := by
  have hcount : ¬ (front ++ '\n' :: (before ++ '\n' :: mid ++ '\n' :: after)).count '\n' < 3 := by
    simp only [List.count_append, List.count_cons_self]
    omega
  have hlast : (front ++ '\n' :: (before ++ '\n' :: mid ++ '\n' :: after)).reverse
      = after.reverse
        ++ '\n' :: (mid.reverse ++ '\n' :: (before.reverse ++ '\n' :: front.reverse)) := by
    simp
  unfold shrinkRun
  rw [if_neg hcount, hlast]
  simp only
  rw [takeWhile_run (bne_newline hfront) (by simp),
    takeWhile_run (bne_newline (by simpa using hafter)) (by simp), List.reverse_reverse]

/-- **A run of blanks, spaced out**, is the run shrunk. -/
theorem spaced_run (hrun : ∀ c ∈ run, isBlank c = true) (hb : Stops isBlank b) :
    spaced (run ++ b)
      = shrinkRun run ++ spaced b := by
  by_cases hfew : run.count '\n' < 3
  · rw [spaced_few hrun hb hfew, shrinkRun, if_pos hfew]
  · obtain ⟨front, before, mid, after, rfl, hfront, hmid, hafter⟩ := exists_three_newlines hfew
    have hbehind : ∀ c ∈ before ++ '\n' :: mid ++ '\n' :: after, isBlank c = true :=
      fun c hc => hrun c (List.mem_append_right _ (List.mem_cons_of_mem _ hc))
    rw [spaced_many hbehind hb hfront hmid hafter, shrinkRun_many hfront hafter]

end BlankRun

/-- Where a run of blanks meets something else, both are shrunk apart. -/
theorem shrink_append {a b : List Char}
    (h : ∀ x ∈ a.getLast?, ∀ y ∈ b.head?, (isBlank x == isBlank y) = false) :
    shrink (a ++ b) = shrink a ++ shrink b := by
  unfold shrink runs
  rw [List.splitBy_append h, List.flatMap_append]

/-- A text of one line is not shrunk. -/
theorem shrink_of_not_mem {cs : List Char} (h : '\n' ∉ cs) : shrink cs = cs := by
  have hrun : ∀ run ∈ runs cs, shrinkRun run = run := by
    intro run hmem
    have hnone : run.count '\n' = 0 := by
      rw [List.count_eq_zero]
      intro hnewline
      apply h
      rw [← List.flatten_splitBy (fun a b => isBlank a == isBlank b) cs]
      exact List.mem_flatten.mpr ⟨run, hmem, hnewline⟩
    unfold shrinkRun
    rw [if_pos (by omega)]
  calc shrink cs = (runs cs).flatMap id := List.flatMap_congr hrun
    _ = (runs cs).flatten := List.flatMap_id
    _ = cs := List.flatten_splitBy _ _

theorem shrink_of_blank {run : List Char} (hne : run ≠ []) (h : ∀ c ∈ run, isBlank c = true) :
    shrink run = shrinkRun run := by
  have hchain : run.IsChain fun a b => (isBlank a == isBlank b) = true := by
    apply List.Pairwise.isChain
    apply List.pairwise_of_forall_mem_list
    intro a ha b hb
    rw [h a ha, h b hb]
    rfl
  unfold shrink runs
  rw [List.splitBy_of_isChain hne hchain, List.flatMap_singleton]

/-- A run of blanks between texts that do not go on with blanks. -/
theorem shrink_around {a run b : List Char} (ha : Stops isBlank a.reverse) (hne : run ≠ [])
    (hrun : ∀ c ∈ run, isBlank c = true) (hb : Stops isBlank b) :
    shrink (a ++ (run ++ b)) = shrink a ++ (shrinkRun run ++ shrink b) := by
  have hleft : ∀ x ∈ a.getLast?, ∀ y ∈ (run ++ b).head?, (isBlank x == isBlank y) = false := by
    intro x hx y hy
    rw [List.head?_append_of_ne_nil _ hne] at hy
    rw [ha x (by rwa [List.head?_reverse]), hrun y (List.mem_of_mem_head? hy)]
    rfl
  have hright : ∀ x ∈ run.getLast?, ∀ y ∈ b.head?, (isBlank x == isBlank y) = false := by
    intro x hx y hy
    rw [hb y hy, hrun x (List.mem_of_mem_getLast? hx)]
    rfl
  rw [shrink_append hleft, shrink_append hright, shrink_of_blank hne hrun]

/-- **At most one blank line in a row**: every run of blanks is shrunk. -/
theorem spaced_eq_shrink (cs : List Char) : spaced cs = shrink cs := by
  -- from one run to the next
  induction hn : cs.length using Nat.strong_induction_on generalizing cs with
  | _ n ih =>
  cases cs with
  | nil => rfl
  | cons c rest =>
    by_cases hc : isBlank c = true
    · have hsplit := List.takeWhile_append_dropWhile (p := isBlank) (l := c :: rest)
      have hrun : ∀ d ∈ (c :: rest).takeWhile isBlank, isBlank d = true :=
        fun d hd => List.mem_takeWhile_imp hd
      have hne : (c :: rest).takeWhile isBlank ≠ [] := by simp [hc]
      have hshort : ((c :: rest).dropWhile isBlank).length < n := by
        rw [← hn, List.dropWhile_cons_of_pos hc, List.length_cons]
        exact Nat.lt_succ_of_le (List.dropWhile_sublist _).length_le
      have hstop := stops_dropWhile (p := isBlank) (c :: rest)
      have haround := shrink_around (a := []) stops_nil hne hrun hstop
      rw [List.nil_append, hsplit] at haround
      rw [haround, ← ih _ hshort _ rfl, ← spaced_run hrun hstop, hsplit]
      rfl
    · have hsplit := List.takeWhile_append_dropWhile (p := fun d => !isBlank d) (l := c :: rest)
      have hdark : ∀ d ∈ (c :: rest).takeWhile fun d => !isBlank d, isBlank d = false :=
        fun d hd => by simpa using List.mem_takeWhile_imp hd
      have hnewline : '\n' ∉ (c :: rest).takeWhile fun d => !isBlank d := by
        intro hmem
        have hblank := hdark _ hmem
        rw [isBlank_newline] at hblank
        exact absurd hblank (by decide)
      have hshort : ((c :: rest).dropWhile fun d => !isBlank d).length < n := by
        rw [← hn, List.dropWhile_cons_of_pos (by simpa using hc), List.length_cons]
        exact Nat.lt_succ_of_le (List.dropWhile_sublist _).length_le
      have hmeet : ∀ x ∈ ((c :: rest).takeWhile fun d => !isBlank d).getLast?,
          ∀ y ∈ ((c :: rest).dropWhile fun d => !isBlank d).head?,
            (isBlank x == isBlank y) = false := by
        intro x hx y hy
        have hstop := stops_dropWhile (p := fun d => !isBlank d) (c :: rest) y hy
        rw [hdark x (List.mem_of_mem_getLast? hx)]
        simpa using hstop
      rw [← hsplit, spaced_append hnewline, ih _ hshort _ rfl, shrink_append hmeet,
        shrink_of_not_mem hnewline]

/-! ## §5. The edges. -/

/-- The text from after the last newline among its leading blanks. -/
def cutLeading (cs : List Char) : List Char :=
  let run := cs.takeWhile isBlank
  if run.contains '\n' then
    (run.reverse.takeWhile (· != '\n')).reverse ++ cs.dropWhile isBlank
  else cs

/-- The text up to the first newline among its trailing blanks. -/
def cutTrailing (cs : List Char) : List Char := (cutLeading cs.reverse).reverse

section Ends

variable {α : Type} {p : α → Bool}

/-- What is dropped from the end stands behind the last element that is
kept. -/
theorem rdropWhile_append_cons {x : α} (hx : p x = false) (a b : List α) :
    (a ++ x :: b).rdropWhile p = a ++ x :: b.rdropWhile p := by
  unfold List.rdropWhile
  rw [List.reverse_append, List.reverse_cons, List.append_assoc, List.dropWhile_append]
  split
  next hb =>
    rw [List.isEmpty_iff] at hb
    simp [hb, hx]
  next => simp

theorem rtakeWhile_append_cons {x : α} (hx : p x = false) (a b : List α) :
    (a ++ x :: b).rtakeWhile p = b.rtakeWhile p := by
  unfold List.rtakeWhile
  rw [List.reverse_append, List.reverse_cons, List.append_assoc, List.takeWhile_append]
  split
  next hb =>
    have hself : b.reverse.takeWhile p = b.reverse := (List.takeWhile_prefix p).eq_of_length hb
    simp [hself, hx]
  next => rfl

end Ends

/-- What is left of the leading blanks stands behind their last newline. -/
theorem cutLeading_eq (cs : List Char) :
    cutLeading cs = (cs.takeWhile isBlank).rtakeWhile (· != '\n') ++ cs.dropWhile isBlank := by
  unfold cutLeading
  simp only
  split
  next => rfl
  next hnone =>
    have hself : (cs.takeWhile isBlank).rtakeWhile (· != '\n') = cs.takeWhile isBlank :=
      List.rtakeWhile_eq_self_iff.mpr (bne_newline (by simpa using hnone))
    rw [hself, List.takeWhile_append_dropWhile]

/-- What is left of the trailing blanks stands before their first newline. -/
theorem cutTrailing_eq (cs : List Char) :
    cutTrailing cs = cs.rdropWhile isBlank ++ (cs.rtakeWhile isBlank).takeWhile (· != '\n') := by
  unfold cutTrailing List.rdropWhile List.rtakeWhile
  rw [cutLeading_eq, List.reverse_append]
  simp [List.rtakeWhile]

/-- Trailing blanks are cut from the first newline on with nothing but blanks behind
it. -/
theorem cutTrailing_cons (c : Char) (cs : List Char) :
    cutTrailing (c :: cs)
      = if c = '\n' ∧ ∀ d ∈ cs, isBlank d = true then [] else c :: cutTrailing cs := by
  rw [cutTrailing_eq, cutTrailing_eq]
  by_cases hall : ∀ d ∈ cs, isBlank d = true
  · by_cases hc : isBlank c = true
    · have hall' : ∀ d ∈ c :: cs, isBlank d = true := List.forall_mem_cons.mpr ⟨hc, hall⟩
      rw [List.rdropWhile_eq_nil_iff.mpr hall, List.rdropWhile_eq_nil_iff.mpr hall',
        List.rtakeWhile_eq_self_iff.mpr hall, List.rtakeWhile_eq_self_iff.mpr hall',
        List.nil_append, List.nil_append, List.takeWhile_cons]
      by_cases hnewline : c = '\n'
      · have hend : c = '\n' ∧ ∀ d ∈ cs, isBlank d = true := ⟨hnewline, hall⟩
        rw [if_pos hend]
        simp [hnewline]
      · simp [hnewline]
    · have hnewline : c ≠ '\n' := by
        rintro rfl
        exact hc isBlank_newline
      have hdark : isBlank c = false := by simpa using hc
      have hdrop := rdropWhile_append_cons hdark [] cs
      have htake := rtakeWhile_append_cons hdark [] cs
      rw [List.nil_append] at hdrop htake
      rw [if_neg (fun h => hnewline h.1), hdrop, htake, List.nil_append, List.cons_append]
  · -- something that is not blank stands behind `c`, which is kept with it
    obtain ⟨d, hd, hdark⟩ : ∃ d ∈ cs, isBlank d = false := by simpa using hall
    obtain ⟨a, b, rfl⟩ := List.append_of_mem hd
    rw [if_neg (fun h => hall h.2), rdropWhile_append_cons hdark, rtakeWhile_append_cons hdark,
      ← List.cons_append, rdropWhile_append_cons hdark, rtakeWhile_append_cons hdark,
      List.cons_append, List.cons_append]

/-- Trailing blanks match where nothing else follows, and then all of them. -/
theorem fit_trailingBlanks (start : Bool) (c : Char) (cs : List Char) :
    trailingBlanks.fit? start (c :: cs)
      = if c = '\n' ∧ ∀ d ∈ cs, isBlank d = true then some (cs.length + 1) else none := by
  show fitParts true [.one isNewline, .many isBlank] (c :: cs) = _
  by_cases hc : c = '\n'
  · subst hc
    rw [fit_newline]
    by_cases hall : ∀ d ∈ cs, isBlank d = true
    · have hfit : fitParts true [.many isBlank] (cs ++ []) = some (cs.length + 0) := by
        rw [fit_blanks hall stops_nil, giveBack_of_some (n := 0) rfl, List.length_reverse]
      rw [List.append_nil] at hfit
      rw [hfit, if_pos ⟨rfl, hall⟩, Option.map_some, Nat.add_zero]
    · have hrest : cs.dropWhile isBlank ≠ [] := by
        rw [Ne, List.dropWhile_eq_nil_iff]
        exact hall
      have hfit : fitParts true [.many isBlank] cs = none := by
        rw [fitParts]
        apply giveBack_eq_none
        intro back _
        simp [fitParts, hrest]
      rw [hfit, if_neg (fun h => hall h.2), Option.map_none]
  · rw [if_neg (fun h => hc h.1)]
    apply fit_newline_of_stops
    rwa [stops_cons, isNewline, beq_eq_false_iff_ne]

/-- Once the work has begun, only trailing blanks are looked for. -/
theorem find_trailingBlanks (cs : List Char) :
    [leadingBlanks, trailingBlanks].findSome? (fun pattern => pattern.fit? false cs)
      = trailingBlanks.fit? false cs := by
  simp [Pattern.fit?, leadingBlanks]

/-- **The end of the text** is cut. -/
theorem replaceFrom_trailing (cs : List Char) :
    replaceFrom [leadingBlanks, trailingBlanks] [] false 0 [] cs = cutTrailing cs := by
  induction cs with
  | nil => rfl
  | cons c cs ih =>
    have hfind := (find_trailingBlanks (c :: cs)).trans (fit_trailingBlanks false c cs)
    rw [cutTrailing_cons]
    split at hfind
    next hend =>
      have hall : replaceFrom [leadingBlanks, trailingBlanks] [] false 0 [] (c :: cs ++ []) = _ :=
        replaceFrom_of_some (by simp) ((List.append_nil (c :: cs)).symm ▸ hfind)
      rw [List.append_nil] at hall
      rw [hall, if_pos hend]
      rfl
    next hend => rw [replaceFrom_of_none hfind, ih, if_neg hend]

/-- Leading blanks match up to their last newline, if they have one. -/
theorem fit_leadingBlanks {before after b : List Char}
    (hrun : ∀ c ∈ before ++ '\n' :: after, isBlank c = true) (hb : Stops isBlank b)
    (hafter : '\n' ∉ after) :
    leadingBlanks.fit? true (before ++ '\n' :: after ++ b) = some (before ++ ['\n']).length := by
  show fitParts false [.many isBlank, .one isNewline] _ = _
  rw [fit_blanks_newline hrun hb hafter, List.length_append]
  rfl

/-- **Blank lines at either end** are cut, first at the start. -/
theorem cut_eq (cs : List Char) : cut cs = cutTrailing (cutLeading cs) := by
  have hsplit := List.takeWhile_append_dropWhile (p := isBlank) (l := cs)
  have hrun : ∀ c ∈ cs.takeWhile isBlank, isBlank c = true := fun c hc => List.mem_takeWhile_imp hc
  have hstop := stops_dropWhile (p := isBlank) cs
  rw [← replaceFrom_trailing]
  unfold cut replaceAll
  by_cases hmem : '\n' ∈ cs.takeWhile isBlank
  · obtain ⟨before, after, hlast, hafter⟩ := exists_last_newline hmem
    rw [hlast] at hrun
    have hlead : cutLeading cs = after ++ cs.dropWhile isBlank := by
      rw [cutLeading_eq, hlast, rtakeWhile_append_cons (by decide),
        List.rtakeWhile_eq_self_iff.mpr (bne_newline hafter)]
    have hglue : before ++ ['\n'] ++ (after ++ cs.dropWhile isBlank) = cs := by
      rw [← List.append_assoc, List.append_assoc before, List.singleton_append, ← hlast, hsplit]
    have hfind : [leadingBlanks, trailingBlanks].findSome?
        (fun pattern => pattern.fit? true (before ++ ['\n'] ++ (after ++ cs.dropWhile isBlank)))
          = some (before ++ ['\n']).length := by
      have hfit := fit_leadingBlanks hrun hstop hafter
      rw [← hlast, hsplit] at hfit
      rw [hglue, List.findSome?_cons, hfit]
    have hstep : replaceFrom [leadingBlanks, trailingBlanks] [] true 0 []
        (before ++ ['\n'] ++ (after ++ cs.dropWhile isBlank)) = _ :=
      replaceFrom_of_some (by simp) hfind
    rw [hglue, List.nil_append] at hstep
    rw [hstep, hlead]
  · -- no newline among the leading blanks, so nothing begins at the start that would not
    -- begin elsewhere
    have hnone : leadingBlanks.fit? true cs = none := by
      show fitParts false [.many isBlank, .one isNewline] cs = none
      rw [← hsplit]
      exact fit_blanks_none hrun hstop hmem
    have hlead : cutLeading cs = cs := by
      unfold cutLeading
      rw [if_neg (by simpa using hmem)]
    rw [hlead]
    apply replaceFrom_start
    rw [find_trailingBlanks, List.findSome?_cons, hnone]
    simp [Pattern.fit?, trailingBlanks]

/-- **Tidying, said on runs of blanks.** -/
theorem tidy_eq_cut (cs : List Char) :
    tidy cs = unlines ((lines (cutTrailing (cutLeading (shrink cs)))).map trimRight) := by
  rw [tidy, cut_eq, spaced_eq_shrink]

end Offside.Markup
