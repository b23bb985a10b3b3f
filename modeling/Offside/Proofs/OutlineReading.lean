/-
  Offside.Proofs.OutlineReading
  ─────────────────────────────
  **AN OUTLINE TELLS DOCUMENTS APART.**

  Nothing of a page is lost in its outline.  Every part of an outline says
  where it ends, so that it can be taken off the front of a text in one way
  only; a lemma for each part states this by cancelling it on both sides of an
  equation:

    · `quoted_cancel`     a quoted text, whichever marks enclose it;
    · `entry_cancel`      a line, with its depth;
    · `selector_cancel`   a tag name with classes and id;
    · `attributes_cancel` the attributes of a tag, though its first child stands
      at the same depth;
    · `node_cancel`       a node with everything inside it.

  What follows a node is never deeper than the node itself (`Shallow`); this
  is the invariant of the induction over the nesting.
-/
import Offside.Outline
import Offside.Proofs.WellFormed

namespace Offside

/-! ## §1. Quoted texts. -/

namespace Text

/-- A longest run and what follows it are determined by the text. -/
theorem run_cancel {p : Char → Bool} {a b r s : List Char} (ha : ∀ c ∈ a, p c = true)
    (hb : ∀ c ∈ b, p c = true) (hr : Stops p r) (hs : Stops p s) (h : a ++ r = b ++ s) :
    a = b ∧ r = s := by
  have htake := congrArg (List.takeWhile p) h
  have hdrop := congrArg (List.dropWhile p) h
  rw [takeWhile_run ha hr, takeWhile_run hb hs] at htake
  rw [dropWhile_run ha hr, dropWhile_run hb hs] at hdrop
  exact ⟨htake, hdrop⟩

/-- Different digits look different. -/
theorem hexDigit_injOn : ∀ m < 16, ∀ n < 16, hexDigit m = hexDigit n → m = n := by decide

theorem hexDigit_ne_newline : ∀ n < 16, hexDigit n ≠ '\n' := by decide

@[simp] theorem length_hexDigits (width n : Nat) : (hexDigits width n).length = width := by
  induction width generalizing n with
  | zero => rfl
  | succ width ih => simp [hexDigits, ih]

/-- A number can be read off its digits, if there are enough of them. -/
theorem hexDigits_injOn {width m n : Nat} (hm : m < 16 ^ width) (hn : n < 16 ^ width)
    (h : hexDigits width m = hexDigits width n) : m = n := by
  induction width generalizing m n with
  | zero =>
    rw [Nat.pow_zero, Nat.lt_one_iff] at hm hn
    rw [hm, hn]
  | succ width ih =>
    rw [Nat.pow_succ'] at hm hn
    obtain ⟨hhigh, hlow⟩ := List.append_inj' h rfl
    have hdiv : m / 16 = n / 16 :=
      ih (Nat.div_lt_of_lt_mul hm) (Nat.div_lt_of_lt_mul hn) hhigh
    have hmod : m % 16 = n % 16 :=
      hexDigit_injOn _ (Nat.mod_lt _ (by decide)) _ (Nat.mod_lt _ (by decide)) (by simpa using hlow)
    rw [← Nat.div_add_mod m 16, ← Nat.div_add_mod n 16, hdiv, hmod]

/-- No digit is a newline. -/
theorem newline_not_mem_hexDigits (width n : Nat) : '\n' ∉ hexDigits width n := by
  induction width generalizing n with
  | zero => simp [hexDigits]
  | succ width ih =>
    have hlast := hexDigit_ne_newline (n % 16) (Nat.mod_lt _ (by decide))
    simpa [hexDigits, ih] using hlast.symm

/-- How many digits stand after the letter of an escape. -/
def escapeWidth (letter : Char) : Nat :=
  if letter = 'x' then 2 else if letter = 'u' then 4 else if letter = 'U' then 8 else 0

/-- The character that an escape without digits stands for. -/
def escapedBy (letter : Char) : Char :=
  if letter = 'n' then '\n' else if letter = 'r' then '\r' else if letter = 't' then '\t' else letter

/-- The letter of the escape says all there is to know about the character, or its digits
do. -/
structure EscapedAs (c letter : Char) : Prop where
  letter_ne_newline : letter ≠ '\n'
  plain : escapeWidth letter = 0 → c = escapedBy letter
  bounded : escapeWidth letter ≠ 0 → c.toNat < 16 ^ escapeWidth letter

/-- A character that has a letter of its own is escaped by it. -/
theorem EscapedAs.ofLetter {c letter : Char} (hne : letter ≠ '\n')
    (hwidth : escapeWidth letter = 0) (h : c = escapedBy letter) : EscapedAs c letter :=
  ⟨hne, fun _ => h, fun hdigits => absurd hwidth hdigits⟩

/-- A character with a number of its own is escaped by its digits, if they suffice. -/
theorem EscapedAs.ofDigits {c letter : Char} (hne : letter ≠ '\n')
    (hwidth : escapeWidth letter ≠ 0) (h : c.toNat < 16 ^ escapeWidth letter) :
    EscapedAs c letter :=
  ⟨hne, fun hnone => absurd hnone hwidth, fun _ => h⟩

/-- The marks that may enclose a quoted text. -/
def IsMark (mark : Char) : Prop := mark = '\'' ∨ mark = '"'

/-- A text is quoted in marks. -/
theorem isMark_quoteMark (cs : List Char) : IsMark (quoteMark cs) := by
  unfold quoteMark
  split
  next => exact .inr rfl
  next => exact .inl rfl

/-- **A character inside a quoted text** stands there as it is or as an escape. -/
theorem quotedChar_cases {mark : Char} (hmark : IsMark mark) (c : Char) :
    (quotedChar mark c = [c] ∧ c ≠ mark ∧ c ≠ '\\' ∧ c ≠ '\n')
      ∨ ∃ letter, quotedChar mark c = '\\' :: letter :: hexDigits (escapeWidth letter) c.toNat
          ∧ EscapedAs c letter := by
  unfold quotedChar
  by_cases hself : c = mark ∨ c = '\\'
  · have hshort : c ≠ '\n' ∧ escapeWidth c = 0 ∧ c = escapedBy c := by
      rcases hmark with rfl | rfl <;> rcases hself with rfl | rfl <;> decide
    obtain ⟨hne, hwidth, hletter⟩ := hshort
    refine .inr ⟨c, ?_, .ofLetter hne hwidth hletter⟩
    rw [if_pos (by simpa using hself), hwidth]
    rfl
  rw [if_neg (by simpa using hself)]
  rw [not_or] at hself
  by_cases hnewline : c = '\n'
  · rw [if_pos (by simpa using hnewline)]
    exact .inr ⟨'n', rfl, .ofLetter (by decide) rfl hnewline⟩
  rw [if_neg (by simpa using hnewline)]
  by_cases hreturn : c = '\r'
  · rw [if_pos (by simpa using hreturn)]
    exact .inr ⟨'r', rfl, .ofLetter (by decide) rfl hreturn⟩
  rw [if_neg (by simpa using hreturn)]
  by_cases htab : c = '\t'
  · rw [if_pos (by simpa using htab)]
    exact .inr ⟨'t', rfl, .ofLetter (by decide) rfl htab⟩
  rw [if_neg (by simpa using htab)]
  by_cases hshown : isPrintable c = true
  · rw [if_pos hshown]
    exact .inl ⟨rfl, hself.1, hself.2, hnewline⟩
  rw [if_neg hshown]
  -- what is not printable is written by its number, in as many digits as it needs
  by_cases hsmall : c.toNat < 0x100
  · rw [if_pos hsmall]
    exact .inr ⟨'x', rfl, .ofDigits (by decide) (by decide) hsmall⟩
  rw [if_neg hsmall]
  by_cases hmiddle : c.toNat < 0x10000
  · rw [if_pos hmiddle]
    exact .inr ⟨'u', rfl, .ofDigits (by decide) (by decide) hmiddle⟩
  rw [if_neg hmiddle]
  exact .inr ⟨'U', rfl, .ofDigits (by decide) (by decide) c.val.toNat_lt⟩

/-- One character of a quoted text comes off the front in one way. -/
theorem quotedChar_cancel {mark c d : Char} {r s : List Char} (hmark : IsMark mark)
    (h : quotedChar mark c ++ r = quotedChar mark d ++ s) : c = d ∧ r = s := by
  rcases quotedChar_cases hmark c with ⟨hc, -, hslash, -⟩ | ⟨t, hc, hct⟩ <;>
    rcases quotedChar_cases hmark d with ⟨hd, -, hslash', -⟩ | ⟨u, hd, hdu⟩ <;>
    rw [hc, hd] at h
  · simpa using h
  · exact absurd (List.cons.inj h).1 hslash
  · exact absurd (List.cons.inj h).1.symm hslash'
  · obtain ⟨rfl, htail⟩ := List.cons.inj (List.cons.inj h).2
    obtain ⟨hdigits, hrest⟩ := List.append_inj htail (by simp)
    refine ⟨?_, hrest⟩
    by_cases hwidth : escapeWidth t = 0
    · rw [hct.plain hwidth, hdu.plain hwidth]
    · exact Char.toNat_inj.mp
        (hexDigits_injOn (hct.bounded hwidth) (hdu.bounded hwidth) hdigits)

/-- The closing mark is no character of the text inside. -/
theorem quotedChar_ne_mark {mark c : Char} {r s : List Char} (hmark : IsMark mark) :
    quotedChar mark c ++ r ≠ mark :: s := by
  intro h
  rcases quotedChar_cases hmark c with ⟨hc, hne, -⟩ | ⟨letter, hc, -⟩
  · rw [hc] at h
    exact hne (List.cons.inj h).1
  · rw [hc] at h
    rcases hmark with rfl | rfl
    · exact absurd (List.cons.inj h).1 (by decide)
    · exact absurd (List.cons.inj h).1 (by decide)

/-- The quoted characters up to the closing mark can be read back. -/
theorem quotedChars_cancel {mark : Char} {cs ds r s : List Char} (hmark : IsMark mark)
    (h : cs.flatMap (quotedChar mark) ++ mark :: r = ds.flatMap (quotedChar mark) ++ mark :: s) :
    cs = ds ∧ r = s := by
  induction cs generalizing ds with
  | nil =>
    cases ds with
    | nil => simpa using h
    | cons d ds =>
      rw [List.flatMap_cons, List.append_assoc] at h
      exact absurd h.symm (quotedChar_ne_mark hmark)
  | cons c cs ih =>
    cases ds with
    | nil =>
      rw [List.flatMap_cons, List.append_assoc] at h
      exact absurd h (quotedChar_ne_mark hmark)
    | cons d ds =>
      rw [List.flatMap_cons, List.flatMap_cons, List.append_assoc, List.append_assoc] at h
      obtain ⟨rfl, htail⟩ := quotedChar_cancel hmark h
      obtain ⟨rfl, hrest⟩ := ih htail
      exact ⟨rfl, hrest⟩

/-- **A quoted text** comes off the front in one way: the first character is the mark, and
the mark says where the text ends. -/
theorem quoted_cancel {cs ds r s : List Char} (h : quoted cs ++ r = quoted ds ++ s) :
    cs = ds ∧ r = s := by
  simp only [quoted, List.cons_append, List.append_assoc, List.nil_append] at h
  obtain ⟨hmark, htail⟩ := List.cons.inj h
  rw [← hmark] at htail
  exact quotedChars_cancel (isMark_quoteMark cs) htail

/-- A quoted text stands on one line. -/
theorem newline_not_mem_quoted (cs : List Char) : '\n' ∉ quoted cs := by
  have hmark := isMark_quoteMark cs
  have hne : '\n' ≠ quoteMark cs := by
    rcases hmark with hm | hm <;> rw [hm] <;> decide
  have hinside : ∀ c, '\n' ∉ quotedChar (quoteMark cs) c := by
    intro c
    rcases quotedChar_cases hmark c with ⟨hc, -, -, hnewline⟩ | ⟨letter, hc, hletter⟩
    · rw [hc]
      simpa using Ne.symm hnewline
    · rw [hc]
      simp [hletter.letter_ne_newline.symm, newline_not_mem_hexDigits]
  simp [quoted, hne, hinside]

end Text

namespace Outline

open Text Head Document

/-! ## §2. Lines and depths. -/

variable {depth : Nat} {cs ds r s : List Char}

/-- An entry is its indentation, its text and a newline. -/
theorem entry_append (depth : Nat) (cs r : List Char) :
    entry depth cs ++ r = List.replicate (2 * depth) ' ' ++ (cs ++ '\n' :: r) := by
  simp [entry]

/-- A line at a known depth comes off the front in one way. -/
theorem entry_cancel (hcs : '\n' ∉ cs) (hds : '\n' ∉ ds)
    (h : entry depth cs ++ r = entry depth ds ++ s) : cs = ds ∧ r = s := by
  rw [entry_append, entry_append, List.append_cancel_left_eq] at h
  have hline {l : List Char} (hl : '\n' ∉ l) : ∀ c ∈ l, (c != '\n') = true := by
    intro c hc
    simpa using fun hnewline : c = '\n' => hl (hnewline ▸ hc)
  obtain ⟨hbody, hrest⟩ := run_cancel (hline hcs) (hline hds) (by simp) (by simp) h
  exact ⟨hbody, (List.cons.inj hrest).2⟩

/-- What follows is not as deep as `depth`. -/
def Shallow (depth : Nat) (rest : List Char) : Prop :=
  ¬ List.replicate (2 * depth) ' ' <+: rest

/-- What follows is no attribute at `depth`. -/
def NoAttribute (depth : Nat) (rest : List Char) : Prop :=
  ¬ List.replicate (2 * depth) ' ' ++ ['A'] <+: rest

/-- There is nothing below the end. -/
theorem shallow_nil (depth : Nat) : Shallow (depth + 1) [] := by
  intro h
  simpa using h.length_le

/-- What is not below a depth is not below the next one. -/
theorem Shallow.succ (h : Shallow depth r) : Shallow (depth + 1) r := by
  intro hdeep
  refine h (List.IsPrefix.trans ?_ hdeep)
  rw [Nat.mul_succ, List.replicate_add]
  exact List.prefix_append _ _

/-- What is not below a tag does not begin with an attribute of it. -/
theorem Shallow.noAttribute (h : Shallow depth r) : NoAttribute depth r := by
  intro hattribute
  exact h ((List.prefix_append _ _).trans hattribute)

/-- What is not below a tag does not begin with an entry below it. -/
theorem Shallow.ne_entry (h : Shallow depth r) : r ≠ entry depth cs ++ s := by
  intro heq
  refine h ?_
  rw [heq, entry_append]
  exact List.prefix_append _ _

/-- A line is not as deep as the level below it. -/
theorem shallow_entry (h : Stops (· == ' ') cs) : Shallow (depth + 1) (entry depth cs ++ r) := by
  intro hdeep
  rw [entry_append, Nat.mul_succ, List.replicate_add, List.prefix_append_right_inj] at hdeep
  have hspace : Stops (· == ' ') (cs ++ '\n' :: r) := stops_append h (by simp)
  obtain ⟨t, ht⟩ := hdeep
  rw [← ht] at hspace
  exact absurd hspace (by simp [List.replicate])

/-- An entry is no attribute if it does not begin like one. -/
theorem noAttribute_entry (h : Stops (· == 'A') cs) : NoAttribute depth (entry depth cs ++ r) := by
  intro hattribute
  rw [entry_append, List.prefix_append_right_inj] at hattribute
  have hletter : Stops (· == 'A') (cs ++ '\n' :: r) := stops_append h (by simp)
  obtain ⟨t, ht⟩ := hattribute
  rw [← ht] at hletter
  exact absurd hletter (by simp)

/-! ## §3. Names, classes and ids. -/

/-- A character that a selector may go on with. -/
def isSelectorChar (c : Char) : Bool := isNameChar c || c == '.' || c == '#'

/-- What ends a selector ends the name in it. -/
theorem stops_name (h : Stops isSelectorChar r) : Stops isNameChar r := by
  intro c hc
  have := h c hc
  simp only [isSelectorChar, Bool.or_eq_false_iff] at this
  exact this.1.1

/-- What ends a selector does not begin with a character of it. -/
theorem ne_cons_of_stops {c : Char} (hc : isSelectorChar c = true) (h : Stops isSelectorChar r) :
    r ≠ c :: s := by
  intro heq
  rw [heq, stops_cons, hc] at h
  exact absurd h (by decide)

/-- A name stands on one line. -/
theorem newline_not_mem_name {name : String} (h : isIdentifier name = true) :
    '\n' ∉ name.toList := by
  intro hmem
  exact absurd ((isIdentifier_iff.mp h).1 _ hmem) (by decide)

/-- A name can be read back up to what ends it. -/
theorem name_cancel {a b : String} (ha : isIdentifier a = true) (hb : isIdentifier b = true)
    (hr : Stops isNameChar r) (hs : Stops isNameChar s) (h : a.toList ++ r = b.toList ++ s) :
    a = b ∧ r = s := by
  obtain ⟨hname, hrest⟩ :=
    run_cancel (isIdentifier_iff.mp ha).1 (isIdentifier_iff.mp hb).1 hr hs h
  exact ⟨String.toList_inj.mp hname, hrest⟩

/-- How classes are written. -/
def classesText (classes : List String) : List Char := classes.flatMap fun c => '.' :: c.toList

/-- How an id is written. -/
def idText (id : Option String) : List Char :=
  match id with
  | some id => if id.isEmpty then [] else '#' :: id.toList
  | none => []

/-- A selector is the name, the classes and the id in a row. -/
theorem selector_append (tag : Tag) (r : List Char) :
    selector tag ++ r
      = tag.name.toList ++ (classesText tag.classes ++ (idText tag.id ++ r)) := by
  unfold selector
  simp only [List.append_assoc]
  rfl

theorem idText_some {id : String} (h : isIdentifier id = true) :
    idText (some id) = '#' :: id.toList := by
  obtain ⟨c, cs, hcs, -⟩ := exists_cons_of_isIdentifier h
  have hne : id.isEmpty = false := by
    rw [String.isEmpty_eq_false_iff]
    intro hempty
    rw [hempty] at hcs
    exact absurd hcs (by simp)
  rw [idText, hne]
  rfl

/-- An id can be read back up to what ends the selector. -/
theorem idText_cancel {a b : Option String} (ha : ∀ name ∈ a, isIdentifier name = true)
    (hb : ∀ name ∈ b, isIdentifier name = true) (hr : Stops isSelectorChar r)
    (hs : Stops isSelectorChar s) (h : idText a ++ r = idText b ++ s) : a = b ∧ r = s := by
  cases a with
  | none =>
    cases b with
    | none => exact ⟨rfl, h⟩
    | some b =>
      rw [idText_some (hb b rfl)] at h
      exact absurd h (ne_cons_of_stops (by decide) hr)
  | some a =>
    rw [idText_some (ha a rfl)] at h
    cases b with
    | none => exact absurd h.symm (ne_cons_of_stops (by decide) hs)
    | some b =>
      rw [idText_some (hb b rfl)] at h
      obtain ⟨rfl, hrest⟩ :=
        name_cancel (ha a rfl) (hb b rfl) (stops_name hr) (stops_name hs) (List.cons.inj h).2
      exact ⟨rfl, hrest⟩

/-- A text in which no class goes on, nor the name before it. -/
def EndsClasses (r : List Char) : Prop := Stops isNameChar r ∧ ∀ s, r ≠ '.' :: s

/-- An id ends the classes before it. -/
theorem endsClasses_idText {id : Option String} (hid : ∀ name ∈ id, isIdentifier name = true)
    (hr : Stops isSelectorChar r) : EndsClasses (idText id ++ r) := by
  cases id with
  | none => exact ⟨stops_name hr, fun s => ne_cons_of_stops (by decide) hr⟩
  | some id =>
    rw [idText_some (hid id rfl)]
    exact ⟨stops_cons.mpr (by decide), fun s hs => absurd (List.cons.inj hs).1 (by decide)⟩

/-- A class ends the name before it. -/
theorem stops_classesText {classes : List String} (hr : EndsClasses r) :
    Stops isNameChar (classesText classes ++ r) := by
  cases classes with
  | nil => exact hr.1
  | cons c classes => exact stops_cons.mpr (by decide)

/-- Classes can be read back up to what ends them. -/
theorem classesText_cancel {a b : List String} (ha : ∀ name ∈ a, isIdentifier name = true)
    (hb : ∀ name ∈ b, isIdentifier name = true) (hr : EndsClasses r) (hs : EndsClasses s)
    (h : classesText a ++ r = classesText b ++ s) : a = b ∧ r = s := by
  induction a generalizing b with
  | nil =>
    cases b with
    | nil => exact ⟨rfl, h⟩
    | cons c b => exact absurd h (hr.2 _)
  | cons c a ih =>
    cases b with
    | nil => exact absurd h.symm (hs.2 _)
    | cons d b =>
      obtain ⟨hc, hothers⟩ := List.forall_mem_cons.mp ha
      obtain ⟨hd, hothers'⟩ := List.forall_mem_cons.mp hb
      have htail : c.toList ++ (classesText a ++ r) = d.toList ++ (classesText b ++ s) := by
        simpa [classesText] using h
      obtain ⟨rfl, hmore⟩ :=
        name_cancel hc hd (stops_classesText hr) (stops_classesText hs) htail
      obtain ⟨rfl, hrest⟩ := ih hothers hothers' hmore
      exact ⟨rfl, hrest⟩

/-- Two tags that differ in nothing but their attributes. -/
structure SameSelector (s t : Tag) : Prop where
  name : s.name = t.name
  classes : s.classes = t.classes
  id : s.id = t.id

/-- A tag is its selector and its attributes. -/
theorem SameSelector.eq {s t : Tag} (h : SameSelector s t) (has : s.attributes = t.attributes) :
    s = t := by
  obtain ⟨hname, hclasses, hid⟩ := h
  cases s
  cases t
  simp_all

variable {value : AttributeValue → Bool}

/-- **A selector** comes off the front in one way. -/
theorem selector_cancel {a b : Tag} (ha : tagConforms value a = true)
    (hb : tagConforms value b = true) (hr : Stops isSelectorChar r) (hs : Stops isSelectorChar s)
    (h : selector a ++ r = selector b ++ s) : SameSelector a b ∧ r = s := by
  obtain ⟨hname, -, hclasses, hid, -⟩ := tagConforms_iff.mp ha
  obtain ⟨hname', -, hclasses', hid', -⟩ := tagConforms_iff.mp hb
  have hends := endsClasses_idText hid hr
  have hends' := endsClasses_idText hid' hs
  rw [selector_append, selector_append] at h
  obtain ⟨hnames, h⟩ :=
    name_cancel hname hname' (stops_classesText hends) (stops_classesText hends') h
  obtain ⟨hclassess, h⟩ := classesText_cancel hclasses hclasses' hends hends' h
  obtain ⟨hids, h⟩ := idText_cancel hid hid' hr hs h
  exact ⟨⟨hnames, hclassess, hids⟩, h⟩

/-- A selector stands on one line. -/
theorem newline_not_mem_selector {tag : Tag} (h : tagConforms value tag = true) :
    '\n' ∉ selector tag := by
  obtain ⟨hname, -, hclasses, hid, -⟩ := tagConforms_iff.mp h
  rw [← List.append_nil (selector tag), selector_append]
  simp only [List.mem_append, List.not_mem_nil, or_false, not_or]
  refine ⟨newline_not_mem_name hname, ?_, ?_⟩
  · intro hmem
    obtain ⟨c, hc, hmem⟩ := List.mem_flatMap.mp hmem
    rw [List.mem_cons] at hmem
    exact hmem.elim (by decide) (newline_not_mem_name (hclasses c hc))
  · cases hcase : tag.id with
    | none => simp [idText]
    | some id =>
      have hid : isIdentifier id = true := hid id hcase
      rw [idText_some hid]
      simp [newline_not_mem_name hid]

/-! ## §4. Attributes. -/

/-- How the value of an attribute is written. -/
def valueText (v : AttributeValue) : List Char :=
  match v with
  | .on => []
  | .off => "=False".toList
  | .text v => '=' :: quoted v.toList

theorem attributeText_eq (a : Attribute) :
    attributeText a = "Attr ".toList ++ (a.name.toList ++ valueText a.value) := by
  unfold attributeText
  simp only [List.append_assoc]
  rfl

/-- A value ends the name before it. -/
theorem stops_valueText (v : AttributeValue) : Stops isNameChar (valueText v) := by
  cases v with
  | on => exact stops_nil
  | off => exact stops_cons.mpr (by decide)
  | text v => exact stops_cons.mpr (by decide)

/-- No quoted text is the word that switches an attribute off. -/
theorem quoted_ne_off (cs : List Char) : quoted cs ≠ "False".toList := by
  intro h
  have hmark : quoteMark cs = 'F' := (List.cons.inj h).1
  rcases isMark_quoteMark cs with hm | hm <;> rw [hm] at hmark <;> exact absurd hmark (by decide)

/-- A value can be read off its text. -/
theorem valueText_injective : Function.Injective valueText := by
  intro v w h
  cases v with
  | on =>
    cases w with
    | on => rfl
    | off => exact absurd h (by decide)
    | text w => exact absurd h (by simp [valueText])
  | off =>
    cases w with
    | on => exact absurd h (by decide)
    | off => rfl
    | text w => exact absurd (List.cons.inj h).2.symm (quoted_ne_off _)
  | text v =>
    cases w with
    | on => exact absurd h (by simp [valueText])
    | off => exact absurd (List.cons.inj h).2 (quoted_ne_off _)
    | text w =>
      have hquoted : quoted v.toList ++ [] = quoted w.toList ++ [] := by
        rw [(List.cons.inj h).2]
      rw [String.toList_inj.mp (quoted_cancel hquoted).1]

/-- An attribute can be read off its text. -/
theorem attributeText_injOn {a b : Attribute} (ha : isIdentifier a.name = true)
    (hb : isIdentifier b.name = true) (h : attributeText a = attributeText b) : a = b := by
  rw [attributeText_eq, attributeText_eq, List.append_cancel_left_eq] at h
  obtain ⟨hname, hvalue⟩ := name_cancel ha hb (stops_valueText _) (stops_valueText _) h
  cases a
  cases b
  simp_all [valueText_injective.eq_iff]

/-- An attribute stands on one line. -/
theorem newline_not_mem_attributeText {a : Attribute} (ha : isIdentifier a.name = true) :
    '\n' ∉ attributeText a := by
  have hvalue : '\n' ∉ valueText a.value := by
    cases a.value with
    | on => simp [valueText]
    | off => decide
    | text v => simp [valueText, newline_not_mem_quoted]
  rw [attributeText_eq]
  simp [newline_not_mem_name ha, hvalue]

/-- The lines of attributes. -/
def attributes (depth : Nat) (as : List Attribute) : List Char :=
  as.flatMap fun a => entry depth (attributeText a)

/-- Where no attribute begins, there are no attributes. -/
theorem NoAttribute.ne_attributes {a : Attribute} {as : List Attribute} (h : NoAttribute depth r) :
    r ≠ attributes depth (a :: as) ++ s := by
  intro heq
  refine h ?_
  rw [heq, attributes, List.flatMap_cons, List.append_assoc, entry_append,
    List.prefix_append_right_inj, attributeText_eq]
  simp

/-- **The attributes of a tag** come off the front in one way, up to where no attribute
follows. -/
theorem attributes_cancel {as bs : List Attribute} (has : ∀ a ∈ as, isIdentifier a.name = true)
    (hbs : ∀ b ∈ bs, isIdentifier b.name = true) (hr : NoAttribute depth r)
    (hs : NoAttribute depth s) (h : attributes depth as ++ r = attributes depth bs ++ s) :
    as = bs ∧ r = s := by
  induction as generalizing bs with
  | nil =>
    cases bs with
    | nil => exact ⟨rfl, h⟩
    | cons b bs => exact absurd h hr.ne_attributes
  | cons a as ih =>
    cases bs with
    | nil => exact absurd h.symm hs.ne_attributes
    | cons b bs =>
      obtain ⟨ha, has⟩ := List.forall_mem_cons.mp has
      obtain ⟨hb, hbs⟩ := List.forall_mem_cons.mp hbs
      rw [attributes, attributes, List.flatMap_cons, List.flatMap_cons, List.append_assoc,
        List.append_assoc] at h
      obtain ⟨hline, hmore⟩ := entry_cancel (newline_not_mem_attributeText ha)
        (newline_not_mem_attributeText hb) h
      obtain ⟨rfl, hrest⟩ := ih has hbs hmore
      exact ⟨by rw [attributeText_injOn ha hb hline], hrest⟩

/-! ## §5. Nodes. -/

/-- The first line of a node. -/
def heading : Node → List Char
  | .doctype name => call "Doctype" name.toList
  | .text content => call "Text" content.toList
  | .void t => "Tag ".toList ++ (selector t ++ " (self-closing)".toList)
  | .element t _ => "Tag ".toList ++ (selector t ++ [])

/-- The lines of a node below its first. -/
def inside (depth : Nat) : Node → List Char
  | .doctype _ | .text _ => []
  | .void t => attributes (depth + 1) t.attributes
  | .element t children => attributes (depth + 1) t.attributes ++ nodes (depth + 1) children

/-- A node is the entry of its heading, and what is inside it. -/
theorem node_append (depth : Nat) (n : Node) (r : List Char) :
    node depth n ++ r = entry depth (heading n) ++ (inside depth n ++ r) := by
  cases n with
  | doctype name => rw [node, heading, inside, List.nil_append]
  | text content => rw [node, heading, inside, List.nil_append]
  | void t => simp [node, heading, inside, tag, attributes]
  | element t children => simp [node, heading, inside, tag, attributes]

/-- The first of several nodes stands in front of the others. -/
theorem nodes_cons_append (depth : Nat) (n : Node) (ns : List Node) (r : List Char) :
    nodes depth (n :: ns) ++ r = node depth n ++ (nodes depth ns ++ r) := by
  rw [nodes, List.append_assoc]

/-- Headings start with other letters than attributes, and not with a space. -/
theorem stops_heading (n : Node) : Stops (· == ' ') (heading n) ∧ Stops (· == 'A') (heading n) := by
  cases n with
  | _ => exact ⟨stops_cons.mpr (by decide), stops_cons.mpr (by decide)⟩

/-- A quoted text behind a word stands on one line with it. -/
theorem newline_not_mem_call {word : String} (hword : '\n' ∉ word.toList) (cs : List Char) :
    '\n' ∉ call word cs := by
  simp [call, hword, newline_not_mem_quoted]

/-- A void tag that conforms is a tag that conforms. -/
theorem tagConforms_of_void {level : Nat} {t : Tag} (h : conforms value level (.void t) = true) :
    tagConforms value t = true := by
  simp only [conforms, Bool.and_eq_true] at h
  exact h.1.2

/-- An element that conforms is a tag and children that conform. -/
theorem conform_of_element {level : Nat} {t : Tag} {children : List Node}
    (h : conforms value level (.element t children) = true) :
    tagConforms value t = true ∧ allConform value (level + 1) children = true := by
  simp only [conforms, Bool.and_eq_true] at h
  exact ⟨h.1.1.2, h.2⟩

/-- The heading of a node stands on one line. -/
theorem newline_not_mem_heading {level : Nat} {n : Node} (h : conforms value level n = true) :
    '\n' ∉ heading n := by
  cases n with
  | doctype name => exact newline_not_mem_call (by decide) _
  | text content => exact newline_not_mem_call (by decide) _
  | void t => simp [heading, newline_not_mem_selector (tagConforms_of_void h)]
  | element t children => simp [heading, newline_not_mem_selector (conform_of_element h).1]

/-- Two nodes that differ in nothing but what is inside them. -/
inductive SameHeading : Node → Node → Prop where
  | doctype (name : String) : SameHeading (.doctype name) (.doctype name)
  | text (content : String) : SameHeading (.text content) (.text content)
  | void {s t : Tag} : SameSelector s t → SameHeading (.void s) (.void t)
  | element {s t : Tag} {ms ns : List Node} :
      SameSelector s t → SameHeading (.element s ms) (.element t ns)

/-- A quoted text can be read off what stands behind the same word. -/
theorem call_cancel {word : String} (h : call word cs = call word ds) : cs = ds := by
  simp only [call, List.append_assoc, List.cons_append, List.append_cancel_left_eq] at h
  exact (quoted_cancel (List.cons.inj h).2).1

/-- **The first line of a node** says what the node is, up to what is inside it. -/
theorem sameHeading_of_eq {level : Nat} {m n : Node} (hm : conforms value level m = true)
    (hn : conforms value level n = true) (h : heading m = heading n) : SameHeading m n := by
  have hend : Stops isSelectorChar [] := stops_nil
  have hmark : Stops isSelectorChar " (self-closing)".toList := stops_cons.mpr (by decide)
  cases m with
  | doctype name =>
    cases n with
    | doctype name' =>
      rw [String.toList_inj.mp (call_cancel h)]
      exact .doctype name'
    | _ => exact absurd (List.cons.inj h).1 (by decide)
  | text content =>
    cases n with
    | text content' =>
      rw [String.toList_inj.mp (call_cancel h)]
      exact .text content'
    | doctype name => exact absurd (List.cons.inj h).1 (by decide)
    | _ => exact absurd (List.cons.inj (List.cons.inj h).2).1 (by decide)
  | void s =>
    have hs := tagConforms_of_void hm
    cases n with
    | void t =>
      have ht := tagConforms_of_void hn
      exact .void (selector_cancel hs ht hmark hmark (List.append_cancel_left h)).1
    | element t ns =>
      -- only one of the two lines ends behind the selector
      have ht := (conform_of_element hn).1
      exact absurd (selector_cancel hs ht hmark hend (List.append_cancel_left h)).2 (by decide)
    | doctype name => exact absurd (List.cons.inj h).1 (by decide)
    | text content => exact absurd (List.cons.inj (List.cons.inj h).2).1 (by decide)
  | element s ms =>
    have hs := (conform_of_element hm).1
    cases n with
    | void t =>
      have ht := tagConforms_of_void hn
      exact absurd (selector_cancel hs ht hend hmark (List.append_cancel_left h)).2 (by decide)
    | element t ns =>
      have ht := (conform_of_element hn).1
      exact .element (selector_cancel hs ht hend hend (List.append_cancel_left h)).1
    | doctype name => exact absurd (List.cons.inj h).1 (by decide)
    | text content => exact absurd (List.cons.inj (List.cons.inj h).2).1 (by decide)

/-- Nodes at a depth are not below the next depth. -/
theorem shallow_nodes {ns : List Node} (hr : Shallow depth r) :
    Shallow (depth + 1) (nodes depth ns ++ r) := by
  cases ns with
  | nil => exact hr.succ
  | cons n ns =>
    rw [nodes_cons_append, node_append]
    exact shallow_entry (stops_heading n).1

/-- Nodes are no attributes. -/
theorem noAttribute_nodes {ns : List Node} (hr : Shallow depth r) :
    NoAttribute depth (nodes depth ns ++ r) := by
  cases ns with
  | nil => exact hr.noAttribute
  | cons n ns =>
    rw [nodes_cons_append, node_append]
    exact noAttribute_entry (stops_heading n).2

/-- Where the nodes of a depth end, no more of them begin. -/
theorem Shallow.ne_nodes {n : Node} {ns : List Node} (h : Shallow depth r) :
    r ≠ nodes depth (n :: ns) ++ s := by
  rw [nodes_cons_append, node_append]
  exact h.ne_entry

theorem isIdentifier_of_tagConforms {t : Tag} (h : tagConforms value t = true) :
    ∀ a ∈ t.attributes, isIdentifier a.name = true :=
  fun a ha => ((tagConforms_iff.mp h).2.2.2.2 a ha).1

mutual

/-- **A node** comes off the front in one way, where what follows is not deeper than the
node. -/
theorem node_cancel {depth level : Nat} {r s : List Char} (m : Node) {n : Node}
    (hm : conforms value level m = true) (hn : conforms value level n = true)
    (hr : Shallow (depth + 1) r) (hs : Shallow (depth + 1) s)
    (h : node depth m ++ r = node depth n ++ s) : m = n ∧ r = s := by
  rw [node_append, node_append] at h
  obtain ⟨hheading, hbelow⟩ :=
    entry_cancel (newline_not_mem_heading hm) (newline_not_mem_heading hn) h
  have hsame := sameHeading_of_eq hm hn hheading
  cases m with
  | doctype name =>
    cases hsame
    exact ⟨rfl, hbelow⟩
  | text content =>
    cases hsame
    exact ⟨rfl, hbelow⟩
  | void a =>
    cases hsame with
    | @void _ b hselector =>
      obtain ⟨hattributes, hrest⟩ :=
        attributes_cancel (isIdentifier_of_tagConforms (tagConforms_of_void hm))
          (isIdentifier_of_tagConforms (tagConforms_of_void hn)) hr.noAttribute hs.noAttribute hbelow
      exact ⟨by rw [hselector.eq hattributes], hrest⟩
  | element a ms =>
    cases hsame with
    | @element _ b _ ns hselector =>
      obtain ⟨hmtag, hms⟩ := conform_of_element hm
      obtain ⟨hntag, hns⟩ := conform_of_element hn
      rw [inside, inside, List.append_assoc, List.append_assoc] at hbelow
      -- the attributes end where the first child or a line further out begins
      obtain ⟨hattributes, hchildren⟩ := attributes_cancel (isIdentifier_of_tagConforms hmtag)
        (isIdentifier_of_tagConforms hntag) (noAttribute_nodes hr) (noAttribute_nodes hs) hbelow
      obtain ⟨hnodes, hrest⟩ := nodes_cancel ms hms hns hr hs hchildren
      exact ⟨by rw [hselector.eq hattributes, hnodes], hrest⟩

/-- **Nodes one below the other** come off the front in one way, where what follows is
further out. -/
theorem nodes_cancel {depth level : Nat} {r s : List Char} (ms : List Node) {ns : List Node}
    (hms : allConform value level ms = true) (hns : allConform value level ns = true)
    (hr : Shallow depth r) (hs : Shallow depth s) (h : nodes depth ms ++ r = nodes depth ns ++ s) :
    ms = ns ∧ r = s := by
  cases ms with
  | nil =>
    cases ns with
    | nil => exact ⟨rfl, h⟩
    | cons n ns => exact absurd h hr.ne_nodes
  | cons m ms =>
    cases ns with
    | nil => exact absurd h.symm hs.ne_nodes
    | cons n ns =>
      simp only [allConform, Bool.and_eq_true] at hms hns
      rw [nodes_cons_append, nodes_cons_append] at h
      -- the sibling that follows, if there is one, is as deep as the node and no deeper
      obtain ⟨hnode, hmore⟩ :=
        node_cancel m hms.1 hns.1 (shallow_nodes hr) (shallow_nodes hs) h
      obtain ⟨hnodes, hrest⟩ := nodes_cancel ms hms.2 hns.2 hr hs hmore
      exact ⟨by rw [hnode, hnodes], hrest⟩

end

/-- **An outline tells documents apart.**  Two pages that were read, from whatever
sources, and have the same outline are the same page. -/
theorem outline_tells_apart {source source' : String} {forest forest' : List Node}
    (hparse : parse source = .ok forest) (hparse' : parse source' = .ok forest')
    (h : render forest = render forest') : forest = forest' := by
  have hlists : nodes 1 forest ++ [] = nodes 1 forest' ++ [] := by
    rw [List.append_nil, List.append_nil]
    exact List.append_cancel_left (String.ofList_injective h)
  exact (nodes_cancel forest (conforms_of_parse hparse) (conforms_of_parse hparse')
    (shallow_nil 0) (shallow_nil 0) hlists).1

/-- A page whose one text looks like the outline of two texts. -/
def forgedPage : List Node := [.element ⟨"p", ["x"], none, []⟩ [.text "a')\nText('b"]]

/-- A page of two texts, with an attribute that stands where the texts do. -/
def honestPage : List Node :=
  [.element ⟨"p", ["x"], none, [⟨"id", .text "it's"⟩]⟩ [.text "a", .text "b"]]

theorem outline_tells_apart_forged :
    (∃ tight loose, parse "p.x[id=\"it's\"]: a\n  | b" = .ok tight
        ∧ parse "p.x[ id = 'it\\'s' ]\n    |   a\n    | \"b\"" = .ok loose
        ∧ render tight = render loose ∧ tight = loose)
      ∧ parse "p.x\n  |\n    a')\n    Text('b" = .ok forgedPage
      ∧ render forgedPage ≠ render honestPage := by
  have htight : parse "p.x[id=\"it's\"]: a\n  | b" = .ok honestPage := by decide +kernel
  have hloose : parse "p.x[ id = 'it\\'s' ]\n    |   a\n    | \"b\"" = .ok honestPage := by
    decide +kernel
  have hforged : parse "p.x\n  |\n    a')\n    Text('b" = .ok forgedPage := by decide +kernel
  refine ⟨⟨honestPage, honestPage, htight, hloose, rfl, outline_tells_apart htight hloose rfl⟩,
    hforged, ?_⟩
  intro hsame
  exact absurd (outline_tells_apart hforged htight hsame) (by decide)

end Outline

end Offside
