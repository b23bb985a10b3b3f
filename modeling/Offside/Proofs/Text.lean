/-
  Offside.Proofs.Text
  ───────────────────
  Laws of runs, of trimming, and of cutting a text into lines.

  A reader takes the longest run of some class of characters and goes on
  behind it.  `Stops p rest` says that no such run goes on in `rest`, and is
  all that is ever needed to know which run `takeWhile` takes.  Trimming is
  the same thing at both ends of a text.
-/
import Mathlib
import Offside.Text.Blank

namespace Offside.Text

/-! ## §1. Runs. -/

/-- No run of `p` goes on in `rest`: it is empty or starts with something
else. -/
def Stops {α : Type} (p : α → Bool) (rest : List α) : Prop :=
  ∀ c ∈ rest.head?, p c = false

section Runs

variable {α : Type} {p : α → Bool} {run rest : List α} {c : α}

@[simp] theorem stops_nil : Stops p [] := by
  intro c hc
  simp at hc

@[simp] theorem stops_cons : Stops p (c :: rest) ↔ p c = false := by
  simp [Stops]

/-- A run that goes on in neither of two texts does not go on in both in a row. -/
theorem stops_append {a b : List α} (ha : Stops p a) (hb : Stops p b) : Stops p (a ++ b) := by
  cases a with
  | nil => exact hb
  | cons c a => simpa using ha

/-- Behind a run it does not go on. -/
theorem stops_dropWhile (cs : List α) : Stops p (cs.dropWhile p) := by
  induction cs with
  | nil => simp
  | cons c cs ih =>
    by_cases hc : p c
    · rw [List.dropWhile_cons_of_pos hc]
      exact ih
    · rw [List.dropWhile_cons_of_neg hc]
      simpa using hc

/-- Nothing is taken where no run goes on. -/
theorem takeWhile_of_stops (h : Stops p rest) : rest.takeWhile p = [] := by
  cases rest with
  | nil => rfl
  | cons c rest =>
    rw [stops_cons] at h
    simp [h]

/-- Nothing is dropped where no run goes on. -/
theorem dropWhile_of_stops (h : Stops p rest) : rest.dropWhile p = rest := by
  cases rest with
  | nil => rfl
  | cons c rest =>
    rw [stops_cons] at h
    simp [h]

/-- The longest run in front of a text where it stops. -/
theorem takeWhile_run (hrun : ∀ c ∈ run, p c = true) (hstop : Stops p rest) :
    (run ++ rest).takeWhile p = run := by
  rw [List.takeWhile_append_of_pos hrun, takeWhile_of_stops hstop, List.append_nil]

/-- What follows that run. -/
theorem dropWhile_run (hrun : ∀ c ∈ run, p c = true) (hstop : Stops p rest) :
    (run ++ rest).dropWhile p = rest := by
  rw [List.dropWhile_append_of_pos hrun, dropWhile_of_stops hstop]

end Runs

/-! ## §2. Trimming. -/

variable {cs a b : List Char} {c : Char}

theorem isBlank_space : isBlank ' ' = true := by decide

theorem isBlank_newline : isBlank '\n' = true := by decide

/-- Blanks in front are trimmed. -/
theorem trimLeft_append_blank (ha : ∀ c ∈ a, isBlank c = true) :
    trimLeft (a ++ cs) = trimLeft cs :=
  List.dropWhile_append_of_pos ha

/-- A text that does not begin with a blank has nothing to trim in front. -/
theorem trimLeft_of_stops (h : Stops isBlank cs) : trimLeft cs = cs :=
  dropWhile_of_stops h

/-- Blanks at the end are trimmed. -/
theorem trimRight_append_blank (hb : ∀ c ∈ b, isBlank c = true) :
    trimRight (cs ++ b) = trimRight cs := by
  unfold trimRight
  rw [List.reverse_append, List.dropWhile_append_of_pos]
  intro c hc
  exact hb c (List.mem_reverse.mp hc)

/-- A text that does not end in a blank has nothing to trim there. -/
theorem trimRight_of_stops (h : Stops isBlank cs.reverse) : trimRight cs = cs := by
  unfold trimRight
  rw [dropWhile_of_stops h, List.reverse_reverse]

/-- Only blanks are trimmed to nothing from the front. -/
theorem trimLeft_eq_nil_iff : trimLeft cs = [] ↔ ∀ c ∈ cs, isBlank c = true :=
  List.dropWhile_eq_nil_iff

/-- Only blanks are trimmed to nothing from the end. -/
theorem trimRight_eq_nil_iff : trimRight cs = [] ↔ ∀ c ∈ cs, isBlank c = true :=
  List.rdropWhile_eq_nil_iff

/-- A text is its trimmed form between blanks. -/
theorem exists_blank_trimRight (cs : List Char) :
    ∃ b, (∀ c ∈ b, isBlank c = true) ∧ cs = trimRight cs ++ b := by
  refine ⟨(cs.reverse.takeWhile isBlank).reverse, ?_, ?_⟩
  · intro c hc
    exact List.mem_takeWhile_imp (List.mem_reverse.mp hc)
  · unfold trimRight
    rw [← List.reverse_append, List.takeWhile_append_dropWhile, List.reverse_reverse]

/-- Trimmed in front, a text does not begin with a blank. -/
theorem stops_trimLeft (cs : List Char) : Stops isBlank (trimLeft cs) :=
  stops_dropWhile cs

/-- Trimmed at the end, a text does not end in a blank. -/
theorem stops_reverse_trimRight (cs : List Char) :
    Stops isBlank (trimRight cs).reverse := by
  unfold trimRight
  rw [List.reverse_reverse]
  exact stops_dropWhile _

/-- Trimming at the end keeps the first character. -/
theorem stops_trimRight (h : Stops isBlank cs) : Stops isBlank (trimRight cs) := by
  obtain ⟨b, -, hcs⟩ := exists_blank_trimRight cs
  cases ht : trimRight cs with
  | nil => simp
  | cons c rest =>
    rw [hcs, ht, List.cons_append, stops_cons] at h
    rwa [stops_cons]

/-- A trimmed text does not begin with a blank. -/
theorem stops_trim (cs : List Char) : Stops isBlank (trim cs) :=
  stops_trimRight (stops_trimLeft cs)

/-- A trimmed text does not end in a blank. -/
theorem stops_reverse_trim (cs : List Char) : Stops isBlank (trim cs).reverse :=
  stops_reverse_trimRight _

/-- A text without blanks at its ends stays as it is. -/
theorem trim_of_stops (h : Stops isBlank cs) (h' : Stops isBlank cs.reverse) :
    trim cs = cs := by
  unfold trim
  rw [trimLeft_of_stops h, trimRight_of_stops h']

/-- There is nothing to trim twice. -/
theorem trim_trim (cs : List Char) : trim (trim cs) = trim cs :=
  trim_of_stops (stops_trim cs) (stops_reverse_trim cs)

/-- Only blanks are trimmed to nothing. -/
theorem trim_eq_nil_iff : trim cs = [] ↔ ∀ c ∈ cs, isBlank c = true := by
  unfold trim
  rw [trimRight_eq_nil_iff]
  constructor
  · intro h
    rw [← List.takeWhile_append_dropWhile (p := isBlank) (l := cs)]
    intro c hc
    rcases List.mem_append.mp hc with hc | hc
    · exact List.mem_takeWhile_imp hc
    · exact h c hc
  · intro h c hc
    exact h c ((List.dropWhile_sublist _).subset hc)

/-- Blanks in front of a text do not show once it is trimmed. -/
theorem trim_blank_append (ha : ∀ c ∈ a, isBlank c = true) : trim (a ++ cs) = trim cs := by
  unfold trim
  rw [trimLeft_append_blank ha]

/-- Nor do blanks behind it. -/
theorem trim_append_blank (hb : ∀ c ∈ b, isBlank c = true) : trim (cs ++ b) = trim cs := by
  unfold trim
  by_cases hcs : ∀ c ∈ cs, isBlank c = true
  · rw [trimLeft_append_blank hcs, trimLeft_eq_nil_iff.mpr hb, trimLeft_eq_nil_iff.mpr hcs]
  · -- the first trimming stops inside `cs`, so `b` is still there for the second
    have hne : trimLeft cs ≠ [] := fun h => hcs (trimLeft_eq_nil_iff.mp h)
    have hsplit : trimLeft (cs ++ b) = trimLeft cs ++ b := by
      unfold trimLeft
      rw [List.dropWhile_append, if_neg]
      simpa [trimLeft] using hne
    rw [hsplit, trimRight_append_blank hb]

/-- Trimming adds nothing. -/
theorem trim_subset (cs : List Char) : trim cs ⊆ cs := by
  intro c hc
  unfold trim trimRight trimLeft at hc
  rw [List.mem_reverse] at hc
  have hc' := (List.dropWhile_sublist _).subset hc
  rw [List.mem_reverse] at hc'
  exact (List.dropWhile_sublist _).subset hc'

/-- Taking quotes off adds nothing. -/
theorem unquote_subset (cs : List Char) : unquote cs ⊆ cs := by
  cases cs with
  | nil => exact List.Subset.refl _
  | cons c cs =>
    rw [unquote]
    split
    next => exact List.Subset.trans (List.dropLast_subset cs) (List.subset_cons_self c cs)
    next => exact List.Subset.refl _

/-! ## §3. Lines. -/

@[simp] theorem lines_nil : lines [] = [[]] := rfl

theorem lines_cons (c : Char) (cs : List Char) : lines (c :: cs) = pushLine c (lines cs) := rfl

/-- There is always a line. -/
theorem lines_ne_nil (cs : List Char) : lines cs ≠ [] := by
  cases cs with
  | nil => simp
  | cons c cs =>
    rw [lines_cons]
    unfold pushLine
    split <;> split <;> simp

/-- The first line and the others. -/
theorem exists_lines_eq (cs : List Char) : ∃ l ls, lines cs = l :: ls :=
  List.exists_cons_of_ne_nil (lines_ne_nil cs)

/-- A newline at the start ends an empty line. -/
theorem lines_newline_cons (cs : List Char) : lines ('\n' :: cs) = [] :: lines cs := by
  obtain ⟨l, ls, h⟩ := exists_lines_eq cs
  rw [lines_cons, h]
  rfl

/-- Any other character belongs to the first line. -/
theorem lines_cons_of_ne {l : List Char} {ls : List (List Char)} (hc : c ≠ '\n')
    (h : lines cs = l :: ls) : lines (c :: cs) = (c :: l) :: ls := by
  rw [lines_cons, h]
  simp [pushLine, hc]

/-- A text without newlines in front of another joins its first line. -/
theorem lines_append_of_not_mem {l : List Char} {ls : List (List Char)} (ha : '\n' ∉ a)
    (hb : lines b = l :: ls) : lines (a ++ b) = (a ++ l) :: ls := by
  induction a with
  | nil => exact hb
  | cons c a ih =>
    rw [List.mem_cons, not_or] at ha
    exact lines_cons_of_ne (Ne.symm ha.1) (ih ha.2)

/-- A text without newlines is one line. -/
theorem lines_of_not_mem (h : '\n' ∉ cs) : lines cs = [cs] := by
  simpa using lines_append_of_not_mem h lines_nil

/-- A newline always starts a new line. -/
theorem lines_append_newline (a b : List Char) :
    lines (a ++ '\n' :: b) = lines a ++ lines b := by
  induction a with
  | nil => exact lines_newline_cons b
  | cons c a ih =>
    obtain ⟨l, ls, h⟩ := exists_lines_eq a
    rw [h, List.cons_append] at ih
    by_cases hc : c = '\n'
    · subst hc
      rw [List.cons_append, lines_newline_cons, lines_newline_cons, ih, h]
      rfl
    · rw [List.cons_append, lines_cons_of_ne hc ih, lines_cons_of_ne hc h]
      rfl

/-- No line has a newline in it. -/
theorem newline_not_mem_of_mem_lines {l : List Char} (h : l ∈ lines cs) : '\n' ∉ l := by
  induction cs generalizing l with
  | nil =>
    rw [lines_nil, List.mem_singleton] at h
    simp [h]
  | cons c cs ih =>
    obtain ⟨m, ms, hm⟩ := exists_lines_eq cs
    by_cases hc : c = '\n'
    · rw [hc, lines_newline_cons, List.mem_cons] at h
      rcases h with rfl | h
      · simp
      · exact ih h
    · rw [lines_cons_of_ne hc hm, List.mem_cons] at h
      rw [hm] at ih
      rcases h with rfl | h
      · have hm' := ih List.mem_cons_self
        simp [hm', Ne.symm hc]
      · exact ih (List.mem_cons_of_mem _ h)

@[simp] theorem unlines_nil : unlines [] = [] := rfl

@[simp] theorem unlines_singleton (l : List Char) : unlines [l] = l := by
  simp [unlines]

/-- The first line ends with a newline if others follow. -/
theorem unlines_cons {l : List Char} {ls : List (List Char)} (h : ls ≠ []) :
    unlines (l :: ls) = l ++ '\n' :: unlines ls := by
  cases ls with
  | nil => exact absurd rfl h
  | cons m ms => simp [unlines, List.intercalate]

/-- Lines joined apart and put in a row are joined with a newline between them. -/
theorem unlines_append {a b : List (List Char)} (ha : a ≠ []) (hb : b ≠ []) :
    unlines (a ++ b) = unlines a ++ '\n' :: unlines b := by
  induction a with
  | nil => exact absurd rfl ha
  | cons l a ih =>
    by_cases hne : a = []
    · rw [hne, List.singleton_append, unlines_cons hb, unlines_singleton]
    · rw [List.cons_append, unlines_cons (by simp [hne]), unlines_cons hne, ih hne,
        List.append_assoc, List.cons_append]

/-- A text in front of lines joins the first of them. -/
theorem append_unlines_cons (a l : List Char) (ls : List (List Char)) :
    a ++ unlines (l :: ls) = unlines ((a ++ l) :: ls) := by
  cases ls with
  | nil => rw [unlines_singleton, unlines_singleton]
  | cons m ms =>
    have hne : m :: ms ≠ [] := List.cons_ne_nil m ms
    rw [unlines_cons hne, unlines_cons hne, List.append_assoc]

/-- Where two texts meet, the last line of the one and the first line of the
other are one line. -/
theorem unlines_glue (ls : List (List Char)) (a b : List Char) (ms : List (List Char)) :
    unlines (ls ++ [a]) ++ unlines (b :: ms) = unlines (ls ++ (a ++ b) :: ms) := by
  cases ls with
  | nil => rw [List.nil_append, unlines_singleton, append_unlines_cons, List.nil_append]
  | cons l ls =>
    rw [unlines_append (by simp) (by simp), unlines_append (by simp) (by simp),
      unlines_singleton, List.append_assoc, List.cons_append, append_unlines_cons]

/-- Lines read backwards, from the last to the first, are the text read backwards. -/
theorem reverse_unlines (ls : List (List Char)) :
    (unlines ls).reverse = unlines (ls.map List.reverse).reverse := by
  induction ls with
  | nil => rfl
  | cons l ls ih =>
    by_cases hne : ls = []
    · rw [hne, unlines_singleton, List.map_cons, List.map_nil, List.reverse_singleton,
        unlines_singleton]
    · rw [unlines_cons hne, List.reverse_append, List.reverse_cons, ih, List.map_cons,
        List.reverse_cons, unlines_append (by simpa using hne) (by simp), unlines_singleton,
        List.append_assoc, List.singleton_append]

/-- What is in the joined lines is in one of them, or is a newline. -/
theorem mem_unlines {ls : List (List Char)} (h : c ∈ unlines ls) :
    c = '\n' ∨ ∃ l ∈ ls, c ∈ l := by
  induction ls with
  | nil => simp at h
  | cons l ls ih =>
    by_cases hls : ls = []
    · rw [hls, unlines_singleton] at h
      exact .inr ⟨l, List.mem_cons_self, h⟩
    · rw [unlines_cons hls, List.mem_append, List.mem_cons] at h
      rcases h with h | h | h
      · exact .inr ⟨l, List.mem_cons_self, h⟩
      · exact .inl h
      · rcases ih h with h | ⟨m, hm, hc⟩
        · exact .inl h
        · exact .inr ⟨m, List.mem_cons_of_mem _ hm, hc⟩

/-- There is one line more than there are newlines. -/
theorem count_unlines {ls : List (List Char)} (hne : ls ≠ []) (h : ∀ l ∈ ls, '\n' ∉ l) :
    (unlines ls).count '\n' + 1 = ls.length := by
  induction ls with
  | nil => exact absurd rfl hne
  | cons l ls ih =>
    have hl : l.count '\n' = 0 := List.count_eq_zero.mpr (h l List.mem_cons_self)
    by_cases hls : ls = []
    · rw [hls, unlines_singleton, hl]
      rfl
    · have ih' := ih hls fun m hm => h m (List.mem_cons_of_mem _ hm)
      rw [unlines_cons hls, List.count_append, List.count_cons_self, hl, List.length_cons]
      omega

/-- Cutting at the newlines loses nothing. -/
theorem unlines_lines (cs : List Char) : unlines (lines cs) = cs := by
  induction cs with
  | nil => rfl
  | cons c cs ih =>
    obtain ⟨l, ls, h⟩ := exists_lines_eq cs
    by_cases hc : c = '\n'
    · rw [hc, lines_newline_cons, unlines_cons (lines_ne_nil cs), ih]
      rfl
    · rw [h] at ih
      have hglue := append_unlines_cons [c] l ls
      rw [ih] at hglue
      rw [lines_cons_of_ne hc h]
      exact hglue.symm

/-- Lines without newlines in them are found again. -/
theorem lines_unlines {ls : List (List Char)} (hne : ls ≠ []) (h : ∀ l ∈ ls, '\n' ∉ l) :
    lines (unlines ls) = ls := by
  induction ls with
  | nil => exact absurd rfl hne
  | cons l ls ih =>
    have hl := lines_of_not_mem (h l List.mem_cons_self)
    by_cases hls : ls = []
    · rw [hls, unlines_singleton, hl]
    · rw [unlines_cons hls, lines_append_newline, hl,
        ih hls fun m hm => h m (List.mem_cons_of_mem _ hm)]
      rfl

/-! ## §4. Trimmed lines. -/

/-- A line that is neither empty nor has blanks at either end. -/
def isTrimmedLine (line : List Char) : Bool :=
  !line.isEmpty && trim line == line && !line.contains '\n'

/-- A trimmed line has something on it, no blanks at its ends and no newline. -/
theorem isTrimmedLine_iff {line : List Char} :
    isTrimmedLine line = true ↔ line ≠ [] ∧ trim line = line ∧ '\n' ∉ line := by
  unfold isTrimmedLine
  simp [and_assoc]

/-- What is to be shown of a line to see that it is trimmed. -/
theorem isTrimmedLine_of_stops {line : List Char} (hne : line ≠ [])
    (hfirst : Stops isBlank line) (hlast : Stops isBlank line.reverse)
    (hnewline : '\n' ∉ line) : isTrimmedLine line = true :=
  isTrimmedLine_iff.mpr ⟨hne, trim_of_stops hfirst hlast, hnewline⟩

end Offside.Text
