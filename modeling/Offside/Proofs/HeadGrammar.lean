/-
  Offside.Proofs.HeadGrammar
  ──────────────────────────
  **THE GRAMMAR OF TAG HEADS.**

  The productions are relations `P cs v rest`: the text `cs` starts with a `P`
  that stands for `v`, and `rest` follows it.

      head       :=  identifier class* id? block* ws* (':' ws* tail)?
      class      :=  '.' identifier
      id         :=  '#' identifier
      block      :=  '[' ws* (attribute ws*)* ']' ws*
      attribute  :=  identifier (ws* '=' ws* value)?
      value      :=  string | bare run

  Identifiers, gaps and bare runs are the longest ones there are, which is
  what makes the grammar unambiguous.  Each reader is shown to accept exactly
  its production, and the head reader exactly the heads.
-/
import Offside.Proofs.Scan

namespace Offside.Head

open Text

/-! ## §1. The productions. -/

/-- A gap: the longest run of spaces and tabs, which may be empty. -/
def Gap (cs rest : List Char) : Prop :=
  ∃ run, cs = run ++ rest ∧ (∀ c ∈ run, isGap c = true) ∧ Stops isGap rest

/-- An identifier: the longest run of name characters, of which there are one
to a hundred. -/
def Identifier (cs : List Char) (name : String) (rest : List Char) : Prop :=
  ∃ run, cs = run ++ rest ∧ (∀ c ∈ run, isNameChar c = true) ∧ Stops isNameChar rest
    ∧ 1 ≤ run.length ∧ run.length ≤ 100 ∧ name = String.ofList run

/-- Whether a string as a whole is such a run. -/
def isIdentifier (s : String) : Bool :=
  s.toList.all isNameChar && decide (1 ≤ s.toList.length) && decide (s.toList.length ≤ 100)

/-- Classes, each an identifier after a dot. -/
inductive Classes : List Char → List String → List Char → Prop where
  | none {cs : List Char} : Stops (· == '.') cs → Classes cs [] cs
  | more {cs mid rest : List Char} {name : String} {names : List String} :
      Identifier cs name mid → Classes mid names rest →
      Classes ('.' :: cs) (name :: names) rest

/-- An id, which is an identifier after a hash sign, or none. -/
inductive Id : List Char → Option String → List Char → Prop where
  | none {cs : List Char} : Stops (· == '#') cs → Id cs none cs
  | some {cs rest : List Char} {name : String} :
      Identifier cs name rest → Id ('#' :: cs) (some name) rest

/-- The inside of a string between two marks: `raw` is how it is written and
`text` what it says.  A backslash takes the next character as it is. -/
inductive Escaped (mark : Char) : List Char → List Char → Prop where
  | nil : Escaped mark [] []
  | plain {c : Char} {raw text : List Char} :
      c ≠ mark → c ≠ '\\' → Escaped mark raw text → Escaped mark (c :: raw) (c :: text)
  | escape {c : Char} {raw text : List Char} :
      Escaped mark raw text → Escaped mark ('\\' :: c :: raw) (c :: text)

/-- A string, from after its opening mark to its closing mark. -/
def Quoted (mark : Char) (cs : List Char) (s : String) (rest : List Char) : Prop :=
  ∃ raw text, cs = raw ++ mark :: rest ∧ Escaped mark raw text ∧ text.length ≤ 10000
    ∧ s = String.ofList text

/-- A value: a string in marks of either kind, or else the longest run that is
free of gaps and closing brackets, which may be empty. -/
inductive Value : List Char → String → List Char → Prop where
  | quoted {mark : Char} {cs rest : List Char} {s : String} :
      isQuote mark = true → Quoted mark cs s rest → Value (mark :: cs) s rest
  | bare {run rest : List Char} :
      (∀ c ∈ run, isBareChar c = true) → Stops isBareChar rest →
      Stops isQuote (run ++ rest) → Value (run ++ rest) (String.ofList run) rest

/-- An attribute: a name alone, or a name and a value with an equals sign
between them. -/
inductive AttributeText : List Char → Attribute → List Char → Prop where
  | flag {cs mid rest : List Char} {name : String} :
      Identifier cs name mid → Gap mid rest → Stops (· == '=') rest →
      AttributeText cs ⟨name, .on⟩ rest
  | set {cs c₁ c₂ c₃ rest : List Char} {name value : String} :
      Identifier cs name c₁ → Gap c₁ ('=' :: c₂) → Gap c₂ c₃ → Value c₃ value rest →
      AttributeText cs ⟨name, .text value⟩ rest

/-- Attributes, each with the gap after it. -/
inductive Items : List Char → List Attribute → List Char → Prop where
  | none {cs : List Char} : Items cs [] cs
  | more {cs c₁ c₂ rest : List Char} {a : Attribute} {as : List Attribute} :
      AttributeText cs a c₁ → Gap c₁ c₂ → Items c₂ as rest → Items cs (a :: as) rest

/-- A block of at most fifty attributes, with the gap after it. -/
inductive Block : List Char → List Attribute → List Char → Prop where
  | mk {cs c₁ c₂ rest : List Char} {as : List Attribute} :
      Gap cs c₁ → Items c₁ as (']' :: c₂) → as.length ≤ 50 → Gap c₂ rest →
      Block ('[' :: cs) as rest

/-- Blocks, one after the other. -/
inductive Blocks : List Char → List Attribute → List Char → Prop where
  | none {cs : List Char} : Stops (· == '[') cs → Blocks cs [] cs
  | more {cs mid rest : List Char} {as bs : List Attribute} :
      Block cs as mid → Blocks mid bs rest → Blocks cs (as ++ bs) rest

/-- What follows the colon, up to the end of the line. -/
inductive TailText : List Char → Tail → Prop where
  | empty : TailText [] .none
  | block {cs : List Char} : (∀ c ∈ cs, isBlank c = true) → TailText ('|' :: cs) .block
  | piped {cs : List Char} :
      (∃ c ∈ cs, isBlank c = false) →
      TailText ('|' :: cs) (.inline (String.ofList (unquote (trim cs))))
  | quoted {cs rest : List Char} {s : String} :
      Quoted '"' cs s rest → Gap rest [] → TailText ('"' :: cs) (.inline s)
  | bare {c : Char} {cs : List Char} :
      c ≠ '|' → c ≠ '"' →
      TailText (c :: cs) (.inline (String.ofList (unquote (trim (c :: cs)))))

/-- What follows the tag, up to the end of the line, and where its tail starts. -/
inductive Ending : List Char → Tail → List Char → Prop where
  | nothing {cs : List Char} : Gap cs [] → Ending cs .none []
  | colon {cs c₁ c₂ : List Char} {tail : Tail} :
      Gap cs (':' :: c₁) → Gap c₁ c₂ → TailText c₂ tail → Ending cs tail c₂

/-- **A tag head**, which takes up a whole text. -/
def HeadText (text : List Char) (head : Head) : Prop :=
  ∃ c₁ c₂ c₃ c₄ start,
    Identifier text head.tag.name c₁ ∧ Classes c₁ head.tag.classes c₂
      ∧ Id c₂ head.tag.id c₃ ∧ Blocks c₃ head.tag.attributes c₄
      ∧ Ending c₄ head.tail start
      ∧ head.contentOffset = text.length - start.length

/-! ## §2. Results and runs. -/

section Results

variable {ε α β : Type} {x : Except ε α} {b : β}

/-- What is made of a result is there when the result is. -/
theorem map_eq_ok_iff {f : α → β} : x.map f = .ok b ↔ ∃ a, x = .ok a ∧ f a = b := by
  cases x <;> simp [Except.map]

/-- Two steps succeed when the first does, and the second with its result. -/
theorem bind_eq_ok_iff {f : α → Except ε β} :
    x >>= f = .ok b ↔ ∃ a, x = .ok a ∧ f a = .ok b := by
  cases x <;> simp [bind, Except.bind]

end Results

variable {cs rest : List Char}

/-- Text that does not start with a character. -/
theorem stops_beq_iff {d : Char} : Stops (· == d) cs ↔ ∀ cs', cs ≠ d :: cs' := by
  cases cs with
  | nil => simp
  | cons c cs => simp

/-- A longest run is what `takeWhile` takes. -/
theorem longest_iff {p : Char → Bool} {run : List Char} :
    (cs = run ++ rest ∧ (∀ c ∈ run, p c = true) ∧ Stops p rest) ↔
      cs.takeWhile p = run ∧ cs.dropWhile p = rest := by
  constructor
  · rintro ⟨rfl, hrun, hstop⟩
    exact ⟨takeWhile_run hrun hstop, dropWhile_run hrun hstop⟩
  · rintro ⟨rfl, rfl⟩
    exact ⟨List.takeWhile_append_dropWhile.symm, fun c hc => List.mem_takeWhile_imp hc,
      stops_dropWhile cs⟩

/-- A gap is what is skipped. -/
theorem gap_iff : Gap cs rest ↔ skipGap cs = rest := by
  unfold Gap skipGap
  constructor
  · rintro ⟨run, hrun⟩
    exact (longest_iff.mp hrun).2
  · intro h
    exact ⟨cs.takeWhile isGap, longest_iff.mpr ⟨rfl, h⟩⟩

/-- Blanks do not stand in names. -/
theorem isBlank_of_isNameChar {c : Char} (h : isNameChar c = true) : isBlank c = false := by
  have hrange : 45 ≤ c.toNat ∧ c.toNat ≤ 122 := by
    simp [isNameChar, Char.isAlphanum, Char.isAlpha, Char.isUpper, Char.isLower, Char.isDigit,
      UInt32.le_iff_toNat_le] at h
    rcases h with (((h | h) | h) | rfl) | rfl
    · omega
    · omega
    · omega
    · decide
    · decide
  unfold isBlank
  simp
  omega

/-- What is not blank is no gap. -/
theorem isGap_of_isBlank {c : Char} (h : isBlank c = false) : isGap c = false := by
  by_contra hgap
  rw [Bool.not_eq_false] at hgap
  have hc : c = ' ' ∨ c = '\t' := by
    simpa only [isGap, Bool.or_eq_true, beq_iff_eq] using hgap
  rcases hc with rfl | rfl
  · exact absurd h (by decide)
  · exact absurd h (by decide)

/-- A name has name characters only, at least one and at most a hundred. -/
theorem isIdentifier_iff {s : String} :
    isIdentifier s = true ↔
      (∀ c ∈ s.toList, isNameChar c = true) ∧ 1 ≤ s.toList.length
        ∧ s.toList.length ≤ 100 := by
  unfold isIdentifier
  rw [Bool.and_eq_true, Bool.and_eq_true, List.all_eq_true, decide_eq_true_iff,
    decide_eq_true_iff, and_assoc]

theorem exists_cons_of_isIdentifier {s : String} (h : isIdentifier s = true) :
    ∃ c cs, s.toList = c :: cs ∧ isNameChar c = true := by
  obtain ⟨hchars, hpos, -⟩ := isIdentifier_iff.mp h
  obtain ⟨c, cs, hcs⟩ := List.exists_cons_of_length_pos hpos
  exact ⟨c, cs, hcs, hchars c (by simp [hcs])⟩

/-- An identifier in front of a text with which it does not go on. -/
theorem identifier_iff {s : String} :
    Identifier cs s rest ↔
      isIdentifier s = true ∧ cs = s.toList ++ rest ∧ Stops isNameChar rest := by
  unfold Identifier
  rw [isIdentifier_iff]
  constructor
  · rintro ⟨run, hsplit, hrun, hstop, hpos, hlen, rfl⟩
    rw [String.toList_ofList]
    exact ⟨⟨hrun, hpos, hlen⟩, hsplit, hstop⟩
  · rintro ⟨⟨hrun, hpos, hlen⟩, hsplit, hstop⟩
    exact ⟨s.toList, hsplit, hrun, hstop, hpos, hlen, String.ofList_toList.symm⟩

/-- The name reader reads an identifier. -/
theorem name_eq_ok_iff {missing : Cause} {s : String} :
    name missing cs = .ok (s, rest) ↔ Identifier cs s rest := by
  unfold name Identifier maxNameLength
  simp only
  constructor
  · intro h
    split at h
    next => exact absurd h (by simp)
    next hlen =>
      split at h
      next => exact absurd h (by simp)
      next hne =>
        -- neither too long nor empty: what was taken is the run
        simp only [Except.ok.injEq, Prod.mk.injEq] at h
        obtain ⟨hsplit, hrun, hstop⟩ := longest_iff.mpr ⟨rfl, h.2⟩
        refine ⟨cs.takeWhile isNameChar, hsplit, hrun, hstop, ?_, by omega, h.1.symm⟩
        rw [List.isEmpty_iff] at hne
        exact List.length_pos_iff.mpr hne
  · rintro ⟨run, hsplit, hrun, hstop, hpos, hlen, rfl⟩
    obtain ⟨htake, hdrop⟩ := longest_iff.mp ⟨hsplit, hrun, hstop⟩
    have hne : run.isEmpty = false := by
      rw [List.isEmpty_eq_false_iff]
      exact List.length_pos_iff.mp hpos
    rw [htake, hdrop, if_neg (by omega), hne]
    rfl

/-! ## §3. Classes and the id. -/

/-- Without a dot there are no classes. -/
theorem classes_of_stops {done : List String} (h : Stops (· == '.') cs) :
    classes done cs = .ok (done.reverse, cs) := by
  rw [classes.eq_def]
  split
  next cs' => exact absurd rfl (stops_beq_iff.mp h cs')
  next => rfl

/-- **The classes** that are read are those of the grammar. -/
theorem classes_eq_ok_iff {done names : List String} :
    classes done cs = .ok (names, rest) ↔
      ∃ more, Classes cs more rest ∧ names = done.reverse ++ more := by
  constructor
  · intro h
    fun_induction classes done cs generalizing names with
    | case1 done cs stop hname => exact absurd h (by simp)
    | case2 done cs s mid hname ih =>
      obtain ⟨more, hmore, hnames⟩ := ih h
      exact ⟨s :: more, .more (name_eq_ok_iff.mp hname) hmore, by simp [hnames]⟩
    | case3 done cs hno =>
      simp only [Except.ok.injEq, Prod.mk.injEq] at h
      obtain ⟨hdone, rfl⟩ := h
      exact ⟨[], .none (stops_beq_iff.mpr hno), by simp [hdone]⟩
  · -- the classes read so far change along the way, so the claim is for all of them
    rintro ⟨more, hmore, rfl⟩
    induction hmore generalizing done with
    | none hstop => rw [classes_of_stops hstop, List.append_nil]
    | more hname _ ih =>
      rw [classes, name_eq_ok_iff.mpr hname]
      simp only
      rw [ih]
      simp

/-- **The id** that is read is that of the grammar. -/
theorem id?_eq_ok_iff {tagId : Option String} :
    id? cs = .ok (tagId, rest) ↔ Id cs tagId rest := by
  constructor
  · intro h
    unfold id? at h
    split at h
    next cs' =>
      obtain ⟨⟨s, after⟩, hname, hs⟩ := map_eq_ok_iff.mp h
      obtain ⟨rfl, rfl⟩ := Prod.mk.inj hs
      exact .some (name_eq_ok_iff.mp hname)
    next hno =>
      simp only [Except.ok.injEq, Prod.mk.injEq] at h
      obtain ⟨rfl, rfl⟩ := h
      exact .none (stops_beq_iff.mpr hno)
  · intro h
    cases h with
    | none hstop =>
      unfold id?
      split
      next cs' => exact absurd rfl (stops_beq_iff.mp hstop cs')
      next => rfl
    | some hname =>
      show Except.map _ (name .idMissing _) = _
      rw [name_eq_ok_iff.mpr hname]
      rfl

/-! ## §4. Strings and values. -/

/-- A quoted text that is read is one of the grammar, and short enough. -/
theorem stringBody_sound {mark : Char} {start room : Nat} {text : List Char}
    (h : stringBody mark start room cs = .ok (text, rest)) :
    ∃ raw, cs = raw ++ mark :: rest ∧ Escaped mark raw text ∧ text.length ≤ room := by
  fun_induction stringBody mark start room cs generalizing text with
  | case1 room => exact absurd h (by simp)
  | case2 room c cs hmark =>
    simp only [Except.ok.injEq, Prod.mk.injEq] at h
    obtain ⟨rfl, rfl⟩ := h
    exact ⟨[], by rw [eq_of_beq hmark]; rfl, .nil, Nat.zero_le _⟩
  | case3 c cs hmark => exact absurd h (by simp)
  | case4 c hmark room hesc => exact absurd h (by simp)
  | case5 c hmark room hesc d ds ih =>
    obtain ⟨⟨body, after⟩, hbody, hp⟩ := map_eq_ok_iff.mp h
    obtain ⟨rfl, rfl⟩ := Prod.mk.inj hp
    obtain ⟨raw, hraw, hescaped, hlen⟩ := ih hbody
    refine ⟨'\\' :: d :: raw, ?_, .escape hescaped, by simpa using hlen⟩
    rw [eq_of_beq hesc, hraw]
    rfl
  | case6 c cs hmark room hesc ih =>
    obtain ⟨⟨body, after⟩, hbody, hp⟩ := map_eq_ok_iff.mp h
    obtain ⟨rfl, rfl⟩ := Prod.mk.inj hp
    obtain ⟨raw, hraw, hescaped, hlen⟩ := ih hbody
    refine ⟨c :: raw, ?_, .plain ?_ ?_ hescaped, by simpa using hlen⟩
    · rw [hraw]
      rfl
    · simpa using hmark
    · simpa using hesc

section Body

variable {mark c : Char} {start room : Nat}

/-- The mark ends the text. -/
theorem stringBody_mark : stringBody mark start room (mark :: cs) = .ok ([], cs) := by
  rw [stringBody.eq_def]
  simp

theorem stringBody_plain (hc : c ≠ mark) (hesc : c ≠ '\\') :
    stringBody mark start (room + 1) (c :: cs)
      = (stringBody mark start room cs).map fun p => (c :: p.1, p.2) := by
  rw [stringBody.eq_def]
  simp [hc, hesc]

theorem stringBody_escape (hmark : mark ≠ '\\') :
    stringBody mark start (room + 1) ('\\' :: c :: cs)
      = (stringBody mark start room cs).map fun p => (c :: p.1, p.2) := by
  rw [stringBody.eq_def]
  simp [hmark.symm]

end Body

/-- A quoted text of the grammar that is short enough is read. -/
theorem stringBody_complete {mark : Char} {start room : Nat} {raw text : List Char}
    (hmark : mark ≠ '\\') (h : Escaped mark raw text) (hlen : text.length ≤ room) :
    stringBody mark start room (raw ++ mark :: rest) = .ok (text, rest) := by
  induction h generalizing room with
  | nil => exact stringBody_mark
  | plain hc hesc _ ih =>
    -- every character of the text, escaped or not, takes one place
    rw [List.length_cons] at hlen
    obtain ⟨room, rfl⟩ := Nat.exists_eq_add_of_le' (by omega : 1 ≤ room)
    rw [List.cons_append, stringBody_plain hc hesc, ih (by omega)]
    rfl
  | escape _ ih =>
    rw [List.length_cons] at hlen
    obtain ⟨room, rfl⟩ := Nat.exists_eq_add_of_le' (by omega : 1 ≤ room)
    rw [List.cons_append, List.cons_append, stringBody_escape hmark, ih (by omega)]
    rfl

/-- **The quoted text** that is read is that of the grammar. -/
theorem string_eq_ok_iff {mark : Char} {s : String} (hmark : mark ≠ '\\') :
    string mark cs = .ok (s, rest) ↔ Quoted mark cs s rest := by
  unfold string Quoted maxStringLength
  constructor
  · intro h
    obtain ⟨⟨text, after⟩, hbody, hp⟩ := map_eq_ok_iff.mp h
    obtain ⟨rfl, rfl⟩ := Prod.mk.inj hp
    obtain ⟨raw, hraw, hescaped, hlen⟩ := stringBody_sound hbody
    exact ⟨raw, text, hraw, hescaped, hlen, rfl⟩
  · rintro ⟨raw, text, rfl, hescaped, hlen, rfl⟩
    rw [stringBody_complete hmark hescaped hlen]
    rfl

theorem ne_backslash_of_isQuote {mark : Char} (h : isQuote mark = true) : mark ≠ '\\' := by
  rintro rfl
  exact absurd h (by decide)

/-- **The value** that is read is that of the grammar. -/
theorem value_eq_ok_iff {s : String} : value cs = .ok (s, rest) ↔ Value cs s rest := by
  constructor
  · intro h
    unfold value at h
    split at h
    next c cs' =>
      split at h
      next hquote =>
        exact .quoted hquote ((string_eq_ok_iff (ne_backslash_of_isQuote hquote)).mp h)
      next hquote =>
        -- no mark in front, so the longest run is the value
        simp only [Except.ok.injEq, Prod.mk.injEq] at h
        obtain ⟨rfl, hrest⟩ := h
        obtain ⟨hsplit, hrun, hstop⟩ := longest_iff.mpr ⟨rfl, hrest⟩
        have hvalue := Value.bare hrun hstop (by rw [← hsplit]; simpa using hquote)
        rwa [← hsplit] at hvalue
    next =>
      simp only [Except.ok.injEq, Prod.mk.injEq] at h
      obtain ⟨rfl, rfl⟩ := h
      exact @Value.bare [] [] (by simp) stops_nil stops_nil
  · intro h
    cases h with
    | @quoted mark cs _ _ hquote hstring =>
      show (if isQuote mark then string mark cs else _) = _
      rw [if_pos hquote]
      exact (string_eq_ok_iff (ne_backslash_of_isQuote hquote)).mpr hstring
    | @bare run _ hrun hstop hquote =>
      obtain ⟨htake, hdrop⟩ := longest_iff.mp ⟨rfl, hrun, hstop⟩
      unfold value
      split
      next c cs' heq =>
        rw [heq, stops_cons] at hquote
        rw [hquote, htake, hdrop]
        rfl
      next heq =>
        obtain ⟨rfl, rfl⟩ := List.append_eq_nil_iff.mp heq
        rfl

/-! ## §5. Attributes and blocks. -/

/-- What follows the name of an attribute. -/
theorem assigned_eq_ok_iff {v : AttributeValue} :
    assigned cs = .ok (v, rest) ↔
      (v = .on ∧ Gap cs rest ∧ Stops (· == '=') rest)
        ∨ ∃ c₁ c₂ s, v = .text s ∧ Gap cs ('=' :: c₁) ∧ Gap c₁ c₂ ∧ Value c₂ s rest := by
  constructor
  · intro h
    unfold assigned at h
    split at h
    next c₁ hgap =>
      obtain ⟨⟨s, after⟩, hval, hp⟩ := map_eq_ok_iff.mp h
      obtain ⟨rfl, rfl⟩ := Prod.mk.inj hp
      exact .inr ⟨c₁, skipGap c₁, s, rfl, gap_iff.mpr hgap, gap_iff.mpr rfl,
        value_eq_ok_iff.mp hval⟩
    next hno =>
      simp only [Except.ok.injEq, Prod.mk.injEq] at h
      obtain ⟨rfl, hrest⟩ := h
      refine .inl ⟨rfl, gap_iff.mpr hrest, stops_beq_iff.mpr fun c₁ hc₁ => ?_⟩
      exact hno c₁ (hrest.trans hc₁)
  · rintro (⟨rfl, hgap, hstop⟩ | ⟨c₁, c₂, s, rfl, hgap₁, hgap₂, hval⟩)
    · unfold assigned
      rw [gap_iff.mp hgap]
      split
      next c₁ => exact absurd rfl (stops_beq_iff.mp hstop c₁)
      next => rfl
    · unfold assigned
      rw [gap_iff.mp hgap₁]
      show Except.map _ (value (skipGap c₁)) = _
      rw [gap_iff.mp hgap₂, value_eq_ok_iff.mpr hval]
      rfl

/-- An attribute is a name and what follows it. -/
theorem attributeText_iff {a : Attribute} :
    AttributeText cs a rest ↔
      ∃ mid, Identifier cs a.name mid ∧ assigned mid = .ok (a.value, rest) := by
  constructor
  · intro h
    cases h with
    | flag hname hgap hstop =>
      exact ⟨_, hname, assigned_eq_ok_iff.mpr (.inl ⟨rfl, hgap, hstop⟩)⟩
    | set hname hgap₁ hgap₂ hval =>
      exact ⟨_, hname, assigned_eq_ok_iff.mpr (.inr ⟨_, _, _, rfl, hgap₁, hgap₂, hval⟩)⟩
  · rintro ⟨mid, hname, hval⟩
    obtain ⟨name, v⟩ := a
    rcases assigned_eq_ok_iff.mp hval with
      ⟨hv, hgap, hstop⟩ | ⟨c₁, c₂, s, hv, hgap₁, hgap₂, hs⟩
    · obtain rfl : v = .on := hv
      exact .flag hname hgap hstop
    · obtain rfl : v = .text s := hv
      exact .set hname hgap₁ hgap₂ hs

/-- A bracket closes the block. -/
theorem block_close {count : Nat} {done : List Attribute} (h : skipGap cs = ']' :: rest) :
    block count done cs = .ok (done, rest) := by
  rw [block.eq_def]
  split
  next hgap => exact absurd (hgap.symm.trans h) (by simp)
  next rest' hgap =>
    obtain rfl : rest' = rest := by simpa using hgap.symm.trans h
    rfl
  next c cs' hno hgap =>
    obtain ⟨hc, -⟩ := List.cons.inj (hgap.symm.trans h)
    exact absurd hc hno

/-- One more attribute of a block. -/
theorem block_item {count : Nat} {done : List Attribute} {c₁ mid : List Char} {s : String}
    {v : AttributeValue} (hgap : skipGap cs = c₁) (hname : Identifier c₁ s mid)
    (hcount : count < 50) (hval : assigned mid = .ok (v, rest)) :
    block count done cs = block (count + 1) (⟨s, v⟩ :: done) rest := by
  -- a name starts with a name character, so the block neither ends nor is it closed here
  obtain ⟨run, hsplit, hrun, -, hpos, -⟩ := id hname
  obtain ⟨c, run', rfl⟩ := List.exists_cons_of_ne_nil (List.length_pos_iff.mp hpos)
  have hc : c ≠ ']' := by
    rintro rfl
    exact absurd (hrun ']' List.mem_cons_self) (by decide)
  rw [block.eq_def]
  split
  next h => simp [hgap, hsplit] at h
  next rest' h =>
    rw [hgap, hsplit, List.cons_append] at h
    exact absurd (List.cons.inj h).1 hc
  next c' cs' hno h =>
    have hc₁ : c' :: cs' = c₁ := h.symm.trans hgap
    rw [hc₁]
    split
    next stop hstop =>
      rw [name_eq_ok_iff.mpr hname] at hstop
      exact absurd hstop (by simp)
    next s' mid' hok =>
      rw [name_eq_ok_iff.mpr hname] at hok
      simp only [Except.ok.injEq, Prod.mk.injEq] at hok
      obtain ⟨rfl, rfl⟩ := hok
      rw [if_neg (by unfold maxBlockAttributes; omega)]
      split
      next stop hstop =>
        rw [hval] at hstop
        exact absurd hstop (by simp)
      next v' rest' hok =>
        rw [hval] at hok
        simp only [Except.ok.injEq, Prod.mk.injEq] at hok
        obtain ⟨rfl, rfl⟩ := hok
        rfl

/-- The block reader reads attributes up to the closing bracket, no more than
there is room for. -/
theorem block_eq_ok_iff {count : Nat} {done attrs : List Attribute} (hcount : count ≤ 50) :
    block count done cs = .ok (attrs, rest) ↔
      ∃ c₁ as, Gap cs c₁ ∧ Items c₁ as (']' :: rest) ∧ count + as.length ≤ 50
        ∧ attrs = as.reverse ++ done := by
  constructor
  · intro h
    fun_induction block count done cs generalizing attrs with
    | case1 => exact absurd h (by simp)
    | case2 count done cs rest' hgap =>
      simp only [Except.ok.injEq, Prod.mk.injEq] at h
      obtain ⟨rfl, rfl⟩ := h
      exact ⟨_, [], gap_iff.mpr hgap, .none, hcount, rfl⟩
    | case3 => exact absurd h (by simp)
    | case4 => exact absurd h (by simp)
    | case5 => exact absurd h (by simp)
    | case6 count done cs c cs' _ hgap s mid hname hroom v rest' hval ih =>
      -- the gap that the next round skips is the one behind this attribute
      unfold maxBlockAttributes at hroom
      obtain ⟨c₁, as, hgap', hitems, hlen, hattrs⟩ := ih (by omega) h
      refine ⟨c :: cs', ⟨s, v⟩ :: as, gap_iff.mpr hgap, .more ?_ hgap' hitems, ?_, ?_⟩
      · exact attributeText_iff.mpr ⟨mid, name_eq_ok_iff.mp hname, hval⟩
      · rw [List.length_cons]
        omega
      · simp [hattrs]
  · rintro ⟨c₁, as, hgap, hitems, hlen, rfl⟩
    -- the end of the items is an index of `Items`, so it must be a variable
    generalize hend : ']' :: rest = stop at hitems
    induction hitems generalizing count done cs with
    | none =>
      subst hend
      exact block_close (gap_iff.mp hgap)
    | more hattr hgap' _ ih =>
      obtain ⟨mid, hname, hval⟩ := attributeText_iff.mp hattr
      rw [List.length_cons] at hlen
      rw [block_item (gap_iff.mp hgap) hname (by omega) hval, ih (by omega) hgap' (by omega) hend]
      simp

/-- Without a bracket there are no attributes. -/
theorem blocks_of_stops {done : List Attribute} (h : Stops (· == '[') cs) :
    blocks done cs = .ok (done.reverse, cs) := by
  rw [blocks.eq_def]
  split
  next cs' => exact absurd rfl (stops_beq_iff.mp h cs')
  next => rfl

/-- **The attributes** that are read are those of the grammar. -/
theorem blocks_eq_ok_iff {done attrs : List Attribute} :
    blocks done cs = .ok (attrs, rest) ↔
      ∃ as, Blocks cs as rest ∧ attrs = done.reverse ++ as := by
  constructor
  · intro h
    fun_induction blocks done cs generalizing attrs with
    | case1 => exact absurd h (by simp)
    | case2 done cs attrs' rest' hblock ih =>
      obtain ⟨c₁, as, hgap, hitems, hlen, rfl⟩ := (block_eq_ok_iff (Nat.zero_le _)).mp hblock
      obtain ⟨bs, hbs, hattrs⟩ := ih h
      refine ⟨as ++ bs, .more (.mk hgap hitems (by omega) (gap_iff.mpr rfl)) hbs, ?_⟩
      simp [hattrs]
    | case3 done cs hno =>
      simp only [Except.ok.injEq, Prod.mk.injEq] at h
      obtain ⟨hdone, rfl⟩ := h
      exact ⟨[], .none (stops_beq_iff.mpr hno), by simp [hdone]⟩
  · rintro ⟨as, has, rfl⟩
    induction has generalizing done with
    | none hstop => rw [blocks_of_stops hstop, List.append_nil]
    | @more _ _ _ as bs hblock _ ih =>
      cases hblock with
      | @mk cs c₁ c₂ _ _ hgap hitems hlen hgap' =>
        -- a block that the grammar has is read, so the loop takes one more turn
        have hread : block 0 done cs = .ok (as.reverse ++ done, c₂) :=
          (block_eq_ok_iff (Nat.zero_le _)).mpr ⟨c₁, as, hgap, hitems, by omega, rfl⟩
        rw [blocks]
        split
        next stop hstop =>
          rw [hread] at hstop
          exact absurd hstop (by simp)
        next attrs rest' hok =>
          rw [hread] at hok
          simp only [Except.ok.injEq, Prod.mk.injEq] at hok
          obtain ⟨rfl, rfl⟩ := hok
          rw [gap_iff.mp hgap', ih]
          simp

/-! ## §6. The whole head. -/

/-- **The tail** that is read is that of the grammar. -/
theorem content_eq_ok_iff {tail : Tail} : content cs = .ok tail ↔ TailText cs tail := by
  constructor
  · intro h
    unfold content at h
    split at h
    next =>
      injection h with h
      subst h
      exact .empty
    next rest =>
      injection h with h
      subst h
      -- a pipe with nothing but blanks behind it opens a block
      by_cases hblank : trim rest = []
      · simp only [hblank]
        exact .block (trim_eq_nil_iff.mp hblank)
      · have hne : (trim rest).isEmpty = false := by simpa using hblank
        rw [hne]
        refine .piped ?_
        by_contra hall
        simp only [not_exists, not_and, Bool.not_eq_false] at hall
        exact hblank (trim_eq_nil_iff.mpr hall)
    next rest =>
      cases hstring : string '"' rest with
      | error stop => simp [hstring] at h
      | ok p =>
        obtain ⟨s, after⟩ := p
        simp only [hstring] at h
        split at h
        next hgap =>
          injection h with h
          subst h
          exact .quoted ((string_eq_ok_iff (by decide)).mp hstring) (gap_iff.mpr hgap)
        next => exact absurd h (by simp)
    next hnil hpipe hquote =>
      injection h with h
      subst h
      cases cs with
      | nil => exact (hnil rfl).elim
      | cons c cs =>
        refine .bare ?_ ?_
        · rintro rfl
          exact hpipe cs rfl
        · rintro rfl
          exact hquote cs rfl
  · intro h
    cases h with
    | empty => rfl
    | @block cs hblank =>
      have hnil : trim cs = [] := trim_eq_nil_iff.mpr hblank
      simp [content, hnil]
    | @piped cs hex =>
      obtain ⟨c, hc, hcb⟩ := hex
      have hne : trim cs ≠ [] := by
        intro hnil
        rw [trim_eq_nil_iff.mp hnil c hc] at hcb
        exact absurd hcb (by decide)
      simp [content, hne]
    | quoted hstring hgap =>
      have hread := (string_eq_ok_iff (by decide)).mpr hstring
      simp only [content, hread, gap_iff.mp hgap]
    | bare hpipe hquote =>
      unfold content
      split
      next heq => exact absurd heq (by simp)
      next heq => exact absurd (List.cons.inj heq).1 hpipe
      next heq => exact absurd (List.cons.inj heq).1 hquote
      next => rfl

/-- **The ending** that is read is that of the grammar. -/
theorem ending_eq_ok_iff {tail : Tail} {left : Nat} :
    ending cs = .ok (tail, left) ↔ ∃ start, Ending cs tail start ∧ left = start.length := by
  constructor
  · intro h
    unfold ending at h
    split at h
    next hgap =>
      simp only [Except.ok.injEq, Prod.mk.injEq] at h
      obtain ⟨rfl, rfl⟩ := h
      exact ⟨[], .nothing (gap_iff.mpr hgap), rfl⟩
    next c₁ hgap =>
      obtain ⟨t, htail, hp⟩ := map_eq_ok_iff.mp h
      obtain ⟨rfl, rfl⟩ := Prod.mk.inj hp
      exact ⟨skipGap c₁, .colon (gap_iff.mpr hgap) (gap_iff.mpr rfl)
        (content_eq_ok_iff.mp htail), rfl⟩
    next => exact absurd h (by simp)
  · rintro ⟨start, hend, rfl⟩
    cases hend with
    | nothing hgap =>
      unfold ending
      rw [gap_iff.mp hgap]
      rfl
    | colon hgap₁ hgap₂ htail =>
      unfold ending
      rw [gap_iff.mp hgap₁]
      simp only [gap_iff.mp hgap₂, content_eq_ok_iff.mpr htail]
      rfl

/-- The parts of a head, one after the other. -/
theorem parts_eq_ok_iff {tag : Tag} {tail : Tail} {left : Nat} :
    parts cs = .ok (tag, tail, left) ↔
      ∃ c₁ c₂ c₃ c₄, name .tagNameMissing cs = .ok (tag.name, c₁)
        ∧ classes [] c₁ = .ok (tag.classes, c₂) ∧ id? c₂ = .ok (tag.id, c₃)
        ∧ blocks [] c₃ = .ok (tag.attributes, c₄) ∧ ending c₄ = .ok (tail, left) := by
  unfold parts
  constructor
  · intro h
    obtain ⟨⟨tagName, c₁⟩, hname, h⟩ := bind_eq_ok_iff.mp h
    obtain ⟨⟨names, c₂⟩, hclasses, h⟩ := bind_eq_ok_iff.mp h
    obtain ⟨⟨tagId, c₃⟩, hid, h⟩ := bind_eq_ok_iff.mp h
    obtain ⟨⟨attrs, c₄⟩, hblocks, h⟩ := bind_eq_ok_iff.mp h
    obtain ⟨⟨tail', left'⟩, hend, h⟩ := bind_eq_ok_iff.mp h
    obtain ⟨rfl, rfl, rfl⟩ : _ = tag ∧ tail' = tail ∧ left' = left := by
      simpa [pure, Except.pure] using h
    exact ⟨c₁, c₂, c₃, c₄, hname, hclasses, hid, hblocks, hend⟩
  · rintro ⟨c₁, c₂, c₃, c₄, hname, hclasses, hid, hblocks, hend⟩
    simp only [hname, hclasses, hid, hblocks, hend, bind, Except.bind, pure, Except.pure]

theorem read_eq_ok_iff_parts {text : List Char} {head : Head} :
    read text = .ok head ↔
      ∃ left, parts text = .ok (head.tag, head.tail, left)
        ∧ head.contentOffset = text.length - left := by
  obtain ⟨tag, tail, offset⟩ := head
  unfold read
  cases parts text with
  | error stop => simp
  | ok p => simp [Prod.ext_iff, eq_comm, and_assoc]

/-- What the head reader accepts is a head. -/
theorem headText_of_read {text : List Char} {head : Head} (h : read text = .ok head) :
    HeadText text head := by
  obtain ⟨left, hparts, hoffset⟩ := read_eq_ok_iff_parts.mp h
  obtain ⟨c₁, c₂, c₃, c₄, hname, hclasses, hid, hblocks, hend⟩ := parts_eq_ok_iff.mp hparts
  obtain ⟨names, hnames, htag⟩ := classes_eq_ok_iff.mp hclasses
  obtain ⟨attrs, hattrs, htag'⟩ := blocks_eq_ok_iff.mp hblocks
  obtain ⟨start, hstart, rfl⟩ := ending_eq_ok_iff.mp hend
  rw [List.reverse_nil, List.nil_append] at htag htag'
  refine ⟨c₁, c₂, c₃, c₄, start, name_eq_ok_iff.mp hname, ?_, id?_eq_ok_iff.mp hid, ?_,
    hstart, hoffset⟩
  · rwa [htag]
  · rwa [htag']

/-- Every head is read as what it says. -/
theorem read_of_headText {text : List Char} {head : Head} (h : HeadText text head) :
    read text = .ok head := by
  obtain ⟨c₁, c₂, c₃, c₄, start, hname, hnames, hid, hattrs, hstart, hoffset⟩ := h
  refine read_eq_ok_iff_parts.mpr ⟨start.length, parts_eq_ok_iff.mpr ⟨c₁, c₂, c₃, c₄, ?_⟩,
    hoffset⟩
  exact ⟨name_eq_ok_iff.mpr hname, classes_eq_ok_iff.mpr ⟨_, hnames, by simp⟩,
    id?_eq_ok_iff.mpr hid, blocks_eq_ok_iff.mpr ⟨_, hattrs, by simp⟩,
    ending_eq_ok_iff.mpr ⟨start, hstart, rfl⟩⟩

/-- **The head reader accepts exactly the grammar**, and what it gives back is
what the derivation says: the name, the classes, the id, the attributes in
order, the tail, and where the tail starts. -/
theorem read_eq_ok_iff_headText (text : List Char) (head : Head) :
    read text = .ok head ↔ HeadText text head :=
  ⟨headText_of_read, read_of_headText⟩

-- one name and not two, a value behind a gap, and a name right behind a string
example :
    (read "p[ab][a= b][a=\"x\"b]".toList).toOption.map (·.tag.attributes)
      = some [⟨"ab", .on⟩, ⟨"a", .text "b"⟩, ⟨"a", .text "x"⟩, ⟨"b", .on⟩] := by
  decide +kernel

end Offside.Head
