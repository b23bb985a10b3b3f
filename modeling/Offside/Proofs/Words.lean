/-
  Offside.Proofs.Words
  ────────────────────
  **THE WORDS OF A TEXT.**

  A word is a longest run of characters that are not blank.  Two texts have the
  same words if they differ only in how wide their gaps are, so words are what a
  change of layout must keep:

    · `words_append`   two texts without blanks where they meet are fused: the last
                       word of the one and the first word of the other are one word
                       (`fuse`), and `length_fuse` says how many are left;
    · `words_tidy`     tidying keeps all words;
    · `words_split`    a text with the words of two texts is made of two texts with
                       these words.
-/
import Offside.Proofs.TidyForm

namespace Offside.Text

/-! ## §1. Words. -/

/-- The words of a text: its longest runs without blanks. -/
def words (cs : List Char) : List (List Char) :=
  (cs.splitOnP isBlank).filter fun w => !w.isEmpty

section Words

variable {a b cs : List Char} {c : Char}

@[simp] theorem words_nil : words [] = [] := rfl

/-- A blank separates words. -/
theorem words_append_cons (hc : isBlank c = true) (a b : List Char) :
    words (a ++ c :: b) = words a ++ words b := by
  unfold words
  rw [List.splitOnP_append_cons a b hc, List.filter_append]

theorem words_cons_of_blank (hc : isBlank c = true) (cs : List Char) :
    words (c :: cs) = words cs :=
  words_append_cons hc [] cs

/-- Blanks in front of a text are no part of its words. -/
theorem words_blank_append (ha : ∀ c ∈ a, isBlank c = true) (cs : List Char) :
    words (a ++ cs) = words cs := by
  induction a with
  | nil => rfl
  | cons c a ih =>
    rw [List.cons_append, words_cons_of_blank (ha c List.mem_cons_self)]
    exact ih fun d hd => ha d (List.mem_cons_of_mem c hd)

theorem words_of_blank (h : ∀ c ∈ cs, isBlank c = true) : words cs = [] := by
  have := words_blank_append h []
  rwa [List.append_nil] at this

/-- Nor are blanks behind it. -/
theorem words_append_blank (hb : ∀ c ∈ b, isBlank c = true) (cs : List Char) :
    words (cs ++ b) = words cs := by
  cases b with
  | nil => rw [List.append_nil]
  | cons c b =>
    rw [words_append_cons (hb c List.mem_cons_self)]
    rw [words_of_blank fun d hd => hb d (List.mem_cons_of_mem c hd), List.append_nil]

/-- A run without blanks is a word. -/
theorem words_of_inked (hne : cs ≠ []) (h : ∀ c ∈ cs, isBlank c = false) : words cs = [cs] := by
  unfold words
  rw [List.splitOnP_eq_singleton h]
  simp [hne]

/-- **The first word**: a run without blanks that does not go on. -/
theorem words_run_append (hne : a ≠ []) (ha : ∀ c ∈ a, isBlank c = false)
    (hb : Stops (fun c => !isBlank c) b) : words (a ++ b) = a :: words b := by
  cases b with
  | nil => rw [List.append_nil, words_of_inked hne ha, words_nil]
  | cons c b =>
    have hc : isBlank c = true := by simpa using hb
    rw [words_append_cons hc, words_of_inked hne ha, words_cons_of_blank hc]
    rfl

/-- A text that is not blank is blanks, the first word, and what follows it. -/
theorem exists_first_word (h : ¬ ∀ c ∈ cs, isBlank c = true) :
    ∃ gap word rest, cs = gap ++ (word ++ rest) ∧ (∀ c ∈ gap, isBlank c = true) ∧ word ≠ []
      ∧ (∀ c ∈ word, isBlank c = false) ∧ Stops (fun c => !isBlank c) rest := by
  refine ⟨cs.takeWhile isBlank, (cs.dropWhile isBlank).takeWhile fun c => !isBlank c,
    (cs.dropWhile isBlank).dropWhile fun c => !isBlank c, ?_, ?_, ?_, ?_, stops_dropWhile _⟩
  · rw [List.takeWhile_append_dropWhile, List.takeWhile_append_dropWhile]
  · exact fun c hc => List.mem_takeWhile_imp hc
  · -- what is left when the blanks are gone starts with something else
    have hdrop : cs.dropWhile isBlank ≠ [] := fun hnil => h (List.dropWhile_eq_nil_iff.mp hnil)
    obtain ⟨c, rest, hrest⟩ := List.exists_cons_of_ne_nil hdrop
    have hstops := stops_dropWhile (p := isBlank) cs
    rw [hrest, stops_cons] at hstops
    rw [hrest, List.takeWhile_cons_of_pos (by simp [hstops])]
    exact List.cons_ne_nil _ _
  · intro c hc
    simpa using List.mem_takeWhile_imp hc

/-- Only a blank text has no words. -/
theorem words_eq_nil_iff : words cs = [] ↔ ∀ c ∈ cs, isBlank c = true := by
  refine ⟨fun h => ?_, words_of_blank⟩
  by_contra hinked
  obtain ⟨gap, word, rest, rfl, hgap, hne, hword, hrest⟩ := exists_first_word hinked
  rw [words_blank_append hgap, words_run_append hne hword hrest] at h
  exact absurd h (List.cons_ne_nil _ _)

end Words

/-! ## §2. Words and lines. -/

section Lines

variable {cs : List Char}

/-- Texts joined by a blank have the words of each of them. -/
theorem words_intercalate {joint : Char} (hjoint : isBlank joint = true) (ls : List (List Char)) :
    words ([joint].intercalate ls) = ls.flatMap words := by
  induction ls with
  | nil => rfl
  | cons l ls ih =>
    cases ls with
    | nil => simp
    | cons m ms =>
      rw [List.intercalate_cons_cons, List.append_assoc, List.singleton_append,
        words_append_cons hjoint, ih]
      rfl

theorem words_eq_flatMap_lines (cs : List Char) : words cs = (lines cs).flatMap words := by
  conv_lhs => rw [← unlines_lines cs]
  exact words_intercalate isBlank_newline _

theorem words_trimLeft (cs : List Char) : words (trimLeft cs) = words cs := by
  conv_rhs => rw [← List.takeWhile_append_dropWhile (p := isBlank) (l := cs)]
  exact (words_blank_append (fun c hc => List.mem_takeWhile_imp hc) _).symm

theorem words_trimRight (cs : List Char) : words (trimRight cs) = words cs := by
  obtain ⟨b, hb, hsplit⟩ := exists_blank_trimRight cs
  conv_rhs => rw [hsplit, words_append_blank hb]

theorem words_trim (cs : List Char) : words (trim cs) = words cs := by
  unfold trim
  rw [words_trimRight, words_trimLeft]

/-- Lines without words can be left out. -/
theorem flatMap_words_filter (ls : List (List Char)) :
    (ls.filter fun l => !l.isEmpty).flatMap words = ls.flatMap words := by
  induction ls with
  | nil => rfl
  | cons l ls ih =>
    cases l with
    | nil => exact ih
    | cons c l =>
      rw [List.filter_cons_of_pos (by rfl), List.flatMap_cons, List.flatMap_cons, ih]

theorem flatMap_words_map {f : List Char → List Char} (hf : ∀ l, words (f l) = words l)
    (ls : List (List Char)) : (ls.map f).flatMap words = ls.flatMap words := by
  rw [List.flatMap_map]
  exact List.flatMap_congr fun l _ => hf l

/-- The lines of a text that are not blank, trimmed and joined, have its words. -/
theorem words_joined {joint : Char} (hjoint : isBlank joint = true) (cs : List Char) :
    words ([joint].intercalate (((lines cs).map trim).filter fun l => !l.isEmpty)) = words cs := by
  rw [words_intercalate hjoint, flatMap_words_filter, flatMap_words_map words_trim,
    ← words_eq_flatMap_lines]

/-- **Tidying keeps the words.** -/
theorem words_tidy (cs : List Char) : words (Markup.tidy cs) = words cs := by
  -- the lines that tidying drops are empty
  have hfilter := (Markup.squash_dropEnds ((lines cs).map trimRight)).2
  calc words (Markup.tidy cs)
      = words (unlines (Markup.tidyLines (lines cs))) := by rw [Markup.tidy_eq_unlines]
    _ = (Markup.tidyLines (lines cs)).flatMap words := words_intercalate isBlank_newline _
    _ = ((lines cs).map trimRight).flatMap words := by
        rw [← flatMap_words_filter, ← flatMap_words_filter ((lines cs).map trimRight)]
        exact congrArg (List.flatMap words) hfilter
    _ = words cs := by rw [flatMap_words_map words_trimRight, ← words_eq_flatMap_lines]

end Lines

/-! ## §3. Texts that meet without a blank. -/

/-- The words of two texts that meet without a blank: the last word of the one and the
first word of the other are one word. -/
def fuse : List (List Char) → List (List Char) → List (List Char)
  | [], vs => vs
  | [u], [] => [u]
  | [u], v :: vs => (u ++ v) :: vs
  | u :: u' :: us, vs => u :: fuse (u' :: us) vs

section Fuse

variable {u : List Char} {us vs : List (List Char)} {a b : List Char}

@[simp] theorem fuse_nil_left (vs : List (List Char)) : fuse [] vs = vs := rfl

theorem fuse_cons_of_ne_nil (h : us ≠ []) (u : List Char) (vs : List (List Char)) :
    fuse (u :: us) vs = u :: fuse us vs := by
  obtain ⟨u', us, rfl⟩ := List.exists_cons_of_ne_nil h
  rfl

@[simp] theorem fuse_nil_right (us : List (List Char)) : fuse us [] = us := by
  induction us with
  | nil => rfl
  | cons u us ih =>
    cases us with
    | nil => rfl
    | cons u' us => rw [fuse_cons_of_ne_nil (List.cons_ne_nil u' us), ih]

/-- One word is lost if there is one on either side. -/
theorem length_fuse (us vs : List (List Char)) :
    (fuse us vs).length + (if us = [] ∨ vs = [] then 0 else 1) = us.length + vs.length := by
  induction us with
  | nil => simp
  | cons u us ih =>
    cases us with
    | nil =>
      cases vs with
      | nil => rfl
      | cons v vs =>
        rw [if_neg (by simp)]
        show (vs.length + 1) + 1 = 1 + (vs.length + 1)
        omega
    | cons u' us =>
      rw [fuse_cons_of_ne_nil (List.cons_ne_nil u' us), List.length_cons, List.length_cons]
      have hif : (if u :: u' :: us = [] ∨ vs = [] then 0 else 1)
          = if u' :: us = [] ∨ vs = [] then 0 else 1 := by simp
      rw [hif]
      omega

/-- A word in front of a text that does not start with a blank. -/
theorem words_run_append_inked (hne : a ≠ []) (ha : ∀ c ∈ a, isBlank c = false)
    (hb : Stops isBlank b) : words (a ++ b) = fuse [a] (words b) := by
  cases b with
  | nil => rw [List.append_nil, words_of_inked hne ha, words_nil, fuse_nil_right]
  | cons c b =>
    rw [stops_cons] at hb
    have hblank : ¬ ∀ d ∈ c :: b, isBlank d = true := by
      intro h
      rw [h c List.mem_cons_self] at hb
      exact absurd hb (by decide)
    obtain ⟨gap, word, rest, hsplit, hgap, hword, hinked, hrest⟩ := exists_first_word hblank
    -- the text starts with its first word, so nothing stands in front of that
    have hnil : gap = [] := by
      cases gap with
      | nil => rfl
      | cons d gap =>
        injection hsplit with hcd _
        have hd := hgap d List.mem_cons_self
        rw [← hcd, hb] at hd
        exact absurd hd (by decide)
    rw [hsplit, hnil, List.nil_append, ← List.append_assoc, words_run_append hword hinked hrest,
      words_run_append (by simp [hword]) ?_ hrest]
    · rfl
    · intro d hd
      rcases List.mem_append.mp hd with hd | hd
      · exact ha d hd
      · exact hinked d hd

/-- **The words of two texts that meet without a blank.** -/
theorem words_append (ha : Stops isBlank a.reverse) (hb : Stops isBlank b) :
    words (a ++ b) = fuse (words a) (words b) := by
  -- the induction takes the first word off `a` and goes on behind it
  induction hn : a.length using Nat.strong_induction_on generalizing a with
  | _ n ih =>
    by_cases hblank : ∀ c ∈ a, isBlank c = true
    · rw [words_blank_append hblank, words_of_blank hblank, fuse_nil_left]
    · obtain ⟨gap, word, rest, rfl, hgap, hne, hword, hrest⟩ := exists_first_word hblank
      rw [List.append_assoc, List.append_assoc, words_blank_append hgap, words_blank_append hgap,
        words_run_append hne hword hrest]
      cases rest with
      | nil => exact words_run_append_inked hne hword hb
      | cons c rest =>
        have hlast : Stops isBlank (c :: rest).reverse := by
          have hreverse : (gap ++ (word ++ c :: rest)).reverse
              = (c :: rest).reverse ++ (gap ++ word).reverse := by simp
          rw [hreverse] at ha
          intro d hd
          refine ha d ?_
          rw [List.head?_append, Option.mem_def.mp hd]
          rfl
        have hwords : words (c :: rest) ≠ [] := by
          intro hnil
          obtain ⟨d, hd⟩ : ∃ d, d ∈ (c :: rest).reverse.head? := by
            cases hrev : (c :: rest).reverse with
            | nil => exact absurd hrev (by simp)
            | cons d ds => exact ⟨d, rfl⟩
          have hink := hlast d hd
          rw [words_eq_nil_iff.mp hnil d (List.mem_reverse.mp (List.mem_of_mem_head? hd))] at hink
          exact absurd hink (by decide)
        have hshorter : (c :: rest).length < n := by
          have hpos := List.length_pos_of_ne_nil hne
          rw [← hn, List.length_append, List.length_append]
          omega
        rw [words_run_append hne hword (by simpa using hrest), ih _ hshorter hlast rfl,
          fuse_cons_of_ne_nil hwords]

end Fuse

/-! ## §4. Taking a text with given words apart. -/

/-- What a text with this first word looks like. -/
theorem exists_of_words_eq_cons {t word : List Char} {ws : List (List Char)}
    (h : words t = word :: ws) :
    ∃ gap rest, t = gap ++ (word ++ rest) ∧ (∀ c ∈ gap, isBlank c = true)
      ∧ Stops (fun c => !isBlank c) rest ∧ words rest = ws := by
  have hblank : ¬ ∀ c ∈ t, isBlank c = true := by
    intro hall
    rw [words_of_blank hall] at h
    exact absurd h (by simp)
  obtain ⟨gap, first, rest, rfl, hgap, hne, hfirst, hrest⟩ := exists_first_word hblank
  rw [words_blank_append hgap, words_run_append hne hfirst hrest] at h
  injection h with hword hws
  exact ⟨gap, rest, by rw [hword], hgap, hrest, hws⟩

/-- **A text with the words of two texts** is made of two texts with these words. -/
theorem words_split {a b t : List Char} (h : words t = words (a ++ b)) :
    ∃ a' b', t = a' ++ b' ∧ words a' = words a ∧ words b' = words b := by
  induction hn : a.length using Nat.strong_induction_on generalizing a t with
  | _ n ih =>
    by_cases hblank : ∀ c ∈ a, isBlank c = true
    · rw [words_blank_append hblank] at h
      exact ⟨[], t, rfl, by rw [words_of_blank hblank, words_nil], h⟩
    · obtain ⟨gap, word, rest, rfl, hgap, hne, hword, hrest⟩ := exists_first_word hblank
      rw [List.append_assoc, List.append_assoc, words_blank_append hgap] at h
      cases rest with
      | nil =>
        -- the last word of `a`: what goes on of it is the start of `b`
        obtain ⟨lead, b, rfl, hlead, hb⟩ : ∃ lead b', b = lead ++ b'
            ∧ (∀ c ∈ lead, isBlank c = false) ∧ Stops (fun c => !isBlank c) b' :=
          ⟨b.takeWhile fun c => !isBlank c, b.dropWhile fun c => !isBlank c,
            List.takeWhile_append_dropWhile.symm,
            fun c hc => by simpa using List.mem_takeWhile_imp hc, stops_dropWhile _⟩
        have hlong : ∀ c ∈ word ++ lead, isBlank c = false :=
          fun c hc => (List.mem_append.mp hc).elim (hword c) (hlead c)
        rw [List.nil_append, ← List.append_assoc, words_run_append (by simp [hne]) hlong hb] at h
        obtain ⟨gap', rest', rfl, hgap', hrest', hwords⟩ := exists_of_words_eq_cons h
        refine ⟨gap' ++ word, lead ++ rest', by simp, ?_, ?_⟩
        · rw [words_blank_append hgap', List.append_nil, words_blank_append hgap]
        · by_cases hnil : lead = []
          · rw [hnil, List.nil_append, List.nil_append, hwords]
          · rw [words_run_append hnil hlead hrest', words_run_append hnil hlead hb, hwords]
      | cons c rest =>
        have hstops : Stops (fun c => !isBlank c) (c :: rest ++ b) := by simpa using hrest
        rw [words_run_append hne hword hstops] at h
        obtain ⟨gap', rest', rfl, hgap', hrest', hwords⟩ := exists_of_words_eq_cons h
        have hshorter : (c :: rest).length < n := by
          have hpos := List.length_pos_of_ne_nil hne
          rw [← hn, List.length_append, List.length_append]
          omega
        obtain ⟨a', b', rfl, ha', hb'⟩ := ih _ hshorter hwords rfl
        refine ⟨gap' ++ (word ++ a'), b', by simp, ?_, hb'⟩
        have hfront : Stops (fun c => !isBlank c) a' := by
          cases a' with
          | nil => exact stops_nil
          | cons d a' => simpa using hrest'
        rw [words_blank_append hgap', words_blank_append hgap, words_run_append hne hword hfront,
          words_run_append hne hword hrest, ha']

end Offside.Text
