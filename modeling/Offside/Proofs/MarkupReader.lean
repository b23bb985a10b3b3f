/-
  Offside.Proofs.MarkupReader
  ───────────────────────────
  Reading markup back.

  The reader knows nothing of how markup is made.  It cuts a text at every
  `<` and the `>` that follows, reads what stands in the brackets as a mark,
  and decodes what stands between the marks:

      markup   :=  text ('<' body '>' text)*
      body     :=  '!DOCTYPE ' name  |  '/' name  |  name entry* ' /'?
      entry    :=  ' ' name ('=' '"' value '"')?

  Markup is a sequence of items, marks and characters.  `readMarkup_write`
  says that items which are written are read again, up to blank characters,
  and with the characters between two marks put together.
-/
import Offside.Markup.Render
import Offside.Proofs.HeadGrammar

namespace Offside.Markup

open Text Head

/-! ## §1. The reader. -/

/-- What stands between a `<` and the next `>`. -/
inductive Mark where
  /-- A document type. -/
  | doctype (name : String)
  /-- The start of an element. -/
  | opening (name : String) (attributes : List Attribute)
  /-- A tag without an inside. -/
  | void (name : String) (attributes : List Attribute)
  /-- The end of an element. -/
  | closing (name : String)
  deriving Repr, DecidableEq

/-- A text with the entities in it decoded. -/
def decode : List Char → List Char
  | '&' :: 'a' :: 'm' :: 'p' :: ';' :: cs => '&' :: decode cs
  | '&' :: 'l' :: 't' :: ';' :: cs => '<' :: decode cs
  | '&' :: 'g' :: 't' :: ';' :: cs => '>' :: decode cs
  | '&' :: 'q' :: 'u' :: 'o' :: 't' :: ';' :: cs => '"' :: decode cs
  | c :: cs => c :: decode cs
  | [] => []

/-- A text without its blanks. -/
def squeeze (cs : List Char) : List Char := cs.filter fun c => !isBlank c

/-- Whether a character can belong to a name in a tag. -/
def isWordChar (c : Char) : Bool := c != ' ' && c != '=' && c != '"' && c != '/'

/-- The value behind the name of an entry, and the rest. -/
def readValue (cs : List Char) : Option (AttributeValue × List Char) :=
  match cs with
  | '=' :: '"' :: cs' =>
    match cs'.dropWhile (· != '"') with
    | [] => none
    | _ :: rest => some (.text (String.ofList (decode (cs'.takeWhile (· != '"')))), rest)
  | cs => some (.on, cs)

/-- An entry and the rest. -/
def readEntry (cs : List Char) : Option (Attribute × List Char) :=
  if (cs.takeWhile isWordChar).isEmpty then none
  else
    (readValue (cs.dropWhile isWordChar)).map fun p =>
      (⟨String.ofList (cs.takeWhile isWordChar), p.1⟩, p.2)

/-- Reading a value leaves less to read. -/
theorem readValue_length_le {cs rest : List Char} {value : AttributeValue}
    (h : readValue cs = some (value, rest)) : rest.length ≤ cs.length := by
  unfold readValue at h
  split at h
  next cs' =>
    have hlen := (List.dropWhile_sublist (p := (· != '"')) (l := cs')).length_le
    split at h
    next => exact absurd h (by simp)
    next c rest' hrest =>
      simp only [Option.some.injEq, Prod.mk.injEq] at h
      rw [hrest] at hlen
      simp only [← h.2, List.length_cons] at hlen ⊢
      omega
  next =>
    simp only [Option.some.injEq, Prod.mk.injEq] at h
    rw [h.2]

/-- Reading an entry leaves less to read. -/
theorem readEntry_length_le {cs rest : List Char} {a : Attribute}
    (h : readEntry cs = some (a, rest)) : rest.length ≤ cs.length := by
  unfold readEntry at h
  split at h
  next => exact absurd h (by simp)
  next =>
    obtain ⟨⟨value, rest'⟩, hvalue, hpair⟩ := Option.map_eq_some_iff.mp h
    simp only [Prod.mk.injEq] at hpair
    have hlen := readValue_length_le hvalue
    have hdrop := (List.dropWhile_sublist (p := isWordChar) (l := cs)).length_le
    rw [← hpair.2]
    omega

/-- The entries of a tag, and whether a slash ends it. -/
def readEntries (cs : List Char) : Option (List Attribute × Bool) :=
  match cs with
  | [] => some ([], false)
  | ' ' :: cs' =>
    if cs' = ['/'] then some ([], true)
    else
      match _h : readEntry cs' with
      | none => none
      | some (a, rest) => (readEntries rest).map fun p => (a :: p.1, p.2)
  | _ => none
termination_by cs.length
decreasing_by
  have := readEntry_length_le _h
  simp only [List.length_cons]
  omega

/-- The mark that a body is. -/
def readMark (body : List Char) : Option Mark :=
  match body with
  | '/' :: name => some (.closing (String.ofList name))
  | '!' :: _ =>
    if doctypeMark.isPrefixOf body then
      some (.doctype (String.ofList (body.drop doctypeMark.length)))
    else none
  | body =>
    if (body.takeWhile isWordChar).isEmpty then none
    else
      (readEntries (body.dropWhile isWordChar)).map fun p =>
        if p.2 then .void (String.ofList (body.takeWhile isWordChar)) p.1
        else .opening (String.ofList (body.takeWhile isWordChar)) p.1

/-- A mark and the text behind it, from after its `<`. -/
def readSection (cs : List Char) : Option (Mark × List Char) :=
  match cs.dropWhile (· != '>') with
  | [] => none
  | _ :: text => (readMark (cs.takeWhile (· != '>'))).map fun m => (m, squeeze (decode text))

/-- Marks, each with the text behind it. -/
def readSections : List (List Char) → Option (List (Mark × List Char))
  | [] => some []
  | cs :: rest =>
    match readSection cs, readSections rest with
    | some p, some ps => some (p :: ps)
    | _, _ => none

/-- **The markup reader**: the text before the first mark, and every mark with
the text behind it, decoded and without blanks. -/
def readMarkup (html : List Char) : Option (List Char × List (Mark × List Char)) :=
  match html.splitOn '<' with
  | [] => none
  | first :: rest => (readSections rest).map fun ps => (squeeze (decode first), ps)

/-- Whether every mark that closes an element closes the one that was opened
last, and none is left open; `stack` holds the names that still are. -/
def isNested : List String → List Mark → Bool
  | stack, [] => stack.isEmpty
  | stack, .opening name _ :: rest => isNested (name :: stack) rest
  | [], .closing _ :: _ => false
  | top :: stack, .closing name :: rest => top == name && isNested stack rest
  | stack, .doctype _ :: rest => isNested stack rest
  | stack, .void _ _ :: rest => isNested stack rest

/-! ## §2. Items. -/

/-- A mark, or a character of text. -/
inductive Item where
  | mark (m : Mark)
  | char (c : Char)
  deriving Repr, DecidableEq

/-- The text before the first mark, and every mark with the text behind it. -/
def gather : List Item → List Char × List (Mark × List Char)
  | [] => ([], [])
  | .char c :: rest => (c :: (gather rest).1, (gather rest).2)
  | .mark m :: rest => ([], (m, (gather rest).1) :: (gather rest).2)

/-- Whether an item is more than a blank. -/
def isInk : Item → Bool
  | .mark _ => true
  | .char c => !isBlank c

/-- The items without the blanks among them. -/
def strip (items : List Item) : List Item := items.filter isInk

/-- Entries, each after a space. -/
def entriesText (as : List Attribute) : List Char :=
  (as.filterMap attribute?).flatMap fun e => ' ' :: e

/-- What a mark says in its brackets. -/
def body : Mark → List Char
  | .doctype name => doctypeMark ++ name.toList
  | .opening name as => name.toList ++ entriesText as
  | .void name as => name.toList ++ (entriesText as ++ [' ', '/'])
  | .closing name => '/' :: name.toList

/-- An item as it is written. -/
def writeItem : Item → List Char
  | .mark m => '<' :: (body m ++ ['>'])
  | .char c => escapeChar c

/-- Items as they are written. -/
def write (items : List Item) : List Char := items.flatMap writeItem

/-- Items in a row are written in a row. -/
theorem write_append (a b : List Item) : write (a ++ b) = write a ++ write b :=
  List.flatMap_append

/-- The first item is written in front of the others. -/
theorem write_cons (item : Item) (items : List Item) :
    write (item :: items) = writeItem item ++ write items :=
  List.flatMap_cons

/-- Characters are written as a text is escaped. -/
theorem write_char (cs : List Char) : write (cs.map .char) = escape cs := by
  unfold write escape
  rw [List.flatMap_map]
  rfl

/-- Blanks are left out in one part as in the other. -/
theorem strip_append (a b : List Item) : strip (a ++ b) = strip a ++ strip b :=
  List.filter_append a b

/-- Of characters, those are left that are not blank. -/
theorem strip_char (cs : List Char) : strip (cs.map .char) = (squeeze cs).map .char := by
  unfold strip squeeze
  rw [List.filter_map]
  rfl

/-- Blanks may be left out before or after the texts are gathered. -/
theorem gather_strip (items : List Item) :
    gather (strip items)
      = (squeeze (gather items).1, (gather items).2.map fun p => (p.1, squeeze p.2)) := by
  induction items with
  | nil => rfl
  | cons item items ih =>
    cases item with
    | mark m =>
      show gather (.mark m :: strip items) = _
      rw [gather, ih]
      rfl
    | char c =>
      -- a blank is left out of the items, and out of the text they gather into
      by_cases hc : isBlank c = true
      · have hskip : strip (.char c :: items) = strip items := by simp [strip, isInk, hc]
        rw [hskip, ih, gather]
        simp [squeeze, hc]
      · have hkeep : strip (.char c :: items) = .char c :: strip items := by
          simp [strip, isInk, hc]
        rw [hkeep, gather, ih, gather]
        simp [squeeze, hc]

/-! ## §3. Texts. -/

section Texts

variable {c d : Char} {cs : List Char}

/-- What an escaped character is made of. -/
theorem escapeChar_cases (c : Char) :
    (c = '&' ∧ escapeChar c = ['&', 'a', 'm', 'p', ';'])
      ∨ (c = '<' ∧ escapeChar c = ['&', 'l', 't', ';'])
      ∨ (c = '>' ∧ escapeChar c = ['&', 'g', 't', ';'])
      ∨ (c = '"' ∧ escapeChar c = ['&', 'q', 'u', 'o', 't', ';'])
      ∨ ((c ≠ '&' ∧ c ≠ '<' ∧ c ≠ '>' ∧ c ≠ '"') ∧ escapeChar c = [c]) := by
  unfold escapeChar
  by_cases h₁ : c = '&'
  · exact .inl ⟨h₁, by rw [h₁]; rfl⟩
  by_cases h₂ : c = '<'
  · exact .inr (.inl ⟨h₂, by rw [h₂]; rfl⟩)
  by_cases h₃ : c = '>'
  · exact .inr (.inr (.inl ⟨h₃, by rw [h₃]; rfl⟩))
  by_cases h₄ : c = '"'
  · exact .inr (.inr (.inr (.inl ⟨h₄, by rw [h₄]; rfl⟩)))
  refine .inr (.inr (.inr (.inr ⟨⟨h₁, h₂, h₃, h₄⟩, ?_⟩)))
  simp [h₁, h₂, h₃, h₄]

/-- The characters that entities are made of. -/
def entityChars : List Char := ['&', 'a', 'm', 'p', 'l', 't', 'g', 'q', 'u', 'o', ';']

/-- A character of an escaped character belongs to an entity, or is that
character itself. -/
theorem mem_escapeChar (h : d ∈ escapeChar c) :
    d ∈ entityChars ∨ (d = c ∧ escapeChar c = [c]) := by
  rcases escapeChar_cases c with ⟨-, he⟩ | ⟨-, he⟩ | ⟨-, he⟩ | ⟨-, he⟩ | ⟨-, he⟩
  · rw [he] at h
    exact .inl ((by decide : _ ⊆ entityChars) h)
  · rw [he] at h
    exact .inl ((by decide : _ ⊆ entityChars) h)
  · rw [he] at h
    exact .inl ((by decide : _ ⊆ entityChars) h)
  · rw [he] at h
    exact .inl ((by decide : _ ⊆ entityChars) h)
  · refine .inr ⟨?_, he⟩
    rw [he] at h
    exact List.mem_singleton.mp h

/-- A class of characters to which none of those belongs that are escaped. -/
theorem escapeChar_of_class {p : Char → Bool} (hp : ∀ x ∈ ['&', '<', '>', '"'], p x = false)
    (hc : p c = true) : escapeChar c = [c] := by
  have hne : ∀ x ∈ ['&', '<', '>', '"'], c ≠ x := by
    rintro x hx rfl
    rw [hp c hx] at hc
    exact absurd hc (by decide)
  rcases escapeChar_cases c with ⟨rfl, -⟩ | ⟨rfl, -⟩ | ⟨rfl, -⟩ | ⟨rfl, -⟩ | ⟨-, he⟩
  · exact absurd rfl (hne '&' (by simp))
  · exact absurd rfl (hne '<' (by simp))
  · exact absurd rfl (hne '>' (by simp))
  · exact absurd rfl (hne '"' (by simp))
  · exact he

/-- Neither brackets nor quotation marks are left in an escaped text. -/
theorem not_mem_escape (hd : d = '<' ∨ d = '>' ∨ d = '"') (cs : List Char) : d ∉ escape cs := by
  unfold escape
  rw [List.mem_flatMap]
  rintro ⟨c, -, hmem⟩
  rcases mem_escapeChar hmem with hentity | ⟨rfl, hself⟩
  · rcases hd with rfl | rfl | rfl <;> exact absurd hentity (by decide)
  · rcases hd with rfl | rfl | rfl <;> exact absurd hself (by decide)

/-- Escaping puts no newline in. -/
theorem newline_not_mem_escape (h : '\n' ∉ cs) : '\n' ∉ escape cs := by
  unfold escape
  rw [List.mem_flatMap]
  rintro ⟨c, hc, hmem⟩
  rcases mem_escapeChar hmem with hentity | ⟨rfl, -⟩
  · exact absurd hentity (by decide)
  · exact h hc

/-- What does not begin with an ampersand stands for itself. -/
theorem decode_cons_of_ne (h : c ≠ '&') (cs : List Char) : decode (c :: cs) = c :: decode cs := by
  rw [decode.eq_def]
  split <;> simp_all

/-- Decoding gives back what was escaped. -/
theorem decode_escape (cs : List Char) : decode (escape cs) = cs := by
  induction cs with
  | nil => rfl
  | cons c cs ih =>
    show decode (escapeChar c ++ escape cs) = c :: cs
    -- the four entities are decoded; what is no entity does not start like one
    rcases escapeChar_cases c with ⟨rfl, h⟩ | ⟨rfl, h⟩ | ⟨rfl, h⟩ | ⟨rfl, h⟩ | ⟨hc, h⟩
    · rw [h]
      show '&' :: decode (escape cs) = _
      rw [ih]
    · rw [h]
      show '<' :: decode (escape cs) = _
      rw [ih]
    · rw [h]
      show '>' :: decode (escape cs) = _
      rw [ih]
    · rw [h]
      show '"' :: decode (escape cs) = _
      rw [ih]
    · rw [h, List.singleton_append, decode_cons_of_ne hc.1, ih]

/-- Escaping hides no blanks. -/
theorem escapeChar_of_isBlank (h : isBlank c = true) : escapeChar c = [c] :=
  escapeChar_of_class (by simp; decide) h

/-- Nor does it make any. -/
theorem isBlank_of_mem_escapeChar (hc : isBlank c = false) (h : d ∈ escapeChar c) :
    isBlank d = false := by
  rcases mem_escapeChar h with hentity | ⟨rfl, -⟩
  · have hall : entityChars.all (fun x => !isBlank x) = true := by decide
    simpa using List.all_eq_true.mp hall d hentity
  · exact hc

end Texts

/-! ## §4. Marks. -/

/-- An attribute that can be written: it is not switched off, and stays on one
line. -/
def ProperEntry (a : Attribute) : Prop :=
  isIdentifier a.name = true ∧ a.value ≠ .off ∧ ∀ v, a.value = .text v → '\n' ∉ v.toList

/-- A mark that can be written: its names are identifiers, and it stays on one
line. -/
def Proper : Mark → Prop
  | .doctype name => '<' ∉ name.toList ∧ '>' ∉ name.toList ∧ '\n' ∉ name.toList
  | .opening name as => isIdentifier name = true ∧ ∀ a ∈ as, ProperEntry a
  | .void name as => isIdentifier name = true ∧ ∀ a ∈ as, ProperEntry a
  | .closing name => isIdentifier name = true

section Marks

variable {name : String} {rest : List Char}

/-- The characters of a name are characters of a word. -/
theorem isWordChar_of_isNameChar {c : Char} (h : isNameChar c = true) : isWordChar c = true := by
  unfold isWordChar
  simp only [Bool.and_eq_true, bne_iff_ne]
  refine ⟨⟨⟨?_, ?_⟩, ?_⟩, ?_⟩ <;> rintro rfl <;> exact absurd h (by decide)

/-- A name is read up to what cannot belong to it. -/
theorem takeWhile_name (h : isIdentifier name = true) (hrest : Stops isWordChar rest) :
    (name.toList ++ rest).takeWhile isWordChar = name.toList :=
  takeWhile_run (fun c hc => isWordChar_of_isNameChar ((isIdentifier_iff.mp h).1 c hc)) hrest

/-- A name is dropped as a word. -/
theorem dropWhile_name (h : isIdentifier name = true) (hrest : Stops isWordChar rest) :
    (name.toList ++ rest).dropWhile isWordChar = rest :=
  dropWhile_run (fun c hc => isWordChar_of_isNameChar ((isIdentifier_iff.mp h).1 c hc)) hrest

/-- A name is not empty. -/
theorem toList_ne_nil_of_isIdentifier (h : isIdentifier name = true) : name.toList ≠ [] :=
  List.ne_nil_of_length_pos (isIdentifier_iff.mp h).2.1

/-- What may stand behind an entry. -/
def Follows (rest : List Char) : Prop := rest = [] ∨ ∃ cs, rest = ' ' :: cs

/-- What follows a name in a tag ends it. -/
theorem Follows.stops (h : Follows rest) : Stops isWordChar rest := by
  rcases h with rfl | ⟨cs, rfl⟩
  · exact stops_nil
  · exact stops_cons.mpr (by decide)

/-- An entry that was written is read again. -/
theorem readEntry_attribute {a : Attribute} {e : List Char} (ha : ProperEntry a)
    (he : attribute? a = some e) (hrest : Follows rest) :
    readEntry (e ++ rest) = some (a, rest) := by
  obtain ⟨name, value⟩ := a
  obtain ⟨hname, hoff, -⟩ := ha
  have hempty : name.toList.isEmpty = false := by
    simpa using toList_ne_nil_of_isIdentifier hname
  cases value with
  | off => exact absurd rfl hoff
  | on =>
    obtain rfl : name.toList = e := by simpa [attribute?] using he
    have hvalue : readValue rest = some (.on, rest) := by
      rcases hrest with rfl | ⟨cs, rfl⟩
      · rfl
      · rfl
    unfold readEntry
    rw [takeWhile_name hname hrest.stops, dropWhile_name hname hrest.stops, hempty, hvalue]
    simp
  | text v =>
    obtain rfl : assign name.toList (escape v.toList) = e := by simpa [attribute?] using he
    have hsplit : assign name.toList (escape v.toList) ++ rest
        = name.toList ++ '=' :: '"' :: (escape v.toList ++ '"' :: rest) := by
      simp [assign]
    have hstop : Stops isWordChar ('=' :: '"' :: (escape v.toList ++ '"' :: rest)) :=
      stops_cons.mpr (by decide)
    -- the value ends at the first quotation mark, and there is none in it
    have hfree : ∀ c ∈ escape v.toList, (c != '"') = true := by
      intro c hc
      rw [bne_iff_ne]
      rintro rfl
      exact not_mem_escape (.inr (.inr rfl)) _ hc
    have hmark : Stops (· != '"') ('"' :: rest) := stops_cons.mpr (by decide)
    have hvalue : readValue ('=' :: '"' :: (escape v.toList ++ '"' :: rest))
        = some (.text v, rest) := by
      unfold readValue
      simp only [dropWhile_run hfree hmark, takeWhile_run hfree hmark, decode_escape,
        String.ofList_toList]
    unfold readEntry
    rw [hsplit, takeWhile_name hname hstop, dropWhile_name hname hstop, hempty, hvalue]
    simp

/-- A proper attribute is written. -/
theorem exists_attribute {a : Attribute} (ha : ProperEntry a) :
    ∃ e, attribute? a = some e ∧ ∃ c cs, e = c :: cs ∧ isNameChar c = true := by
  obtain ⟨name, value⟩ := a
  obtain ⟨hname, hoff, -⟩ := ha
  obtain ⟨c, cs, hcs, hc⟩ := exists_cons_of_isIdentifier hname
  cases value with
  | off => exact absurd rfl hoff
  | on => exact ⟨_, rfl, c, cs, hcs, hc⟩
  | text v =>
    refine ⟨_, rfl, c, cs ++ '=' :: '"' :: escape v.toList ++ ['"'], ?_, hc⟩
    show assign name.toList _ = _
    rw [hcs]
    simp [assign]

/-- An entry is written behind a space. -/
theorem entriesText_cons {a : Attribute} {as : List Attribute} {e : List Char}
    (he : attribute? a = some e) : entriesText (a :: as) = ' ' :: (e ++ entriesText as) := by
  unfold entriesText
  rw [List.filterMap_cons_some he, List.flatMap_cons, List.cons_append]

/-- What ends a tag. -/
def slash (void : Bool) : List Char := if void then [' ', '/'] else []

/-- What follows the name of a tag is an entry, a slash or nothing. -/
theorem follows_entriesText {as : List Attribute} (has : ∀ a ∈ as, ProperEntry a) (void : Bool) :
    Follows (entriesText as ++ slash void) := by
  cases as with
  | nil =>
    cases void with
    | false => exact .inl rfl
    | true => exact .inr ⟨_, rfl⟩
  | cons a as =>
    obtain ⟨e, he, -⟩ := exists_attribute (has a List.mem_cons_self)
    rw [entriesText_cons he]
    exact .inr ⟨_, rfl⟩

/-- **The entries of a tag are read again**, in order. -/
theorem readEntries_entriesText {as : List Attribute} (has : ∀ a ∈ as, ProperEntry a)
    (void : Bool) : readEntries (entriesText as ++ slash void) = some (as, void) := by
  induction as with
  | nil =>
    cases void with
    | false =>
      show readEntries [] = _
      rw [readEntries]
    | true =>
      show readEntries [' ', '/'] = _
      rw [readEntries, if_pos rfl]
  | cons a as ih =>
    have ha := has a List.mem_cons_self
    have has' : ∀ b ∈ as, ProperEntry b := fun b hb => has b (List.mem_cons_of_mem _ hb)
    obtain ⟨e, he, c, cs, hcs, hc⟩ := exists_attribute ha
    have hread := readEntry_attribute ha he (follows_entriesText has' void)
    -- an entry starts with a name, so it is not taken for the slash at the end
    have hslash : e ++ (entriesText as ++ slash void) ≠ ['/'] := by
      rw [hcs]
      intro heq
      have hslash : c = '/' := (List.cons.inj heq).1
      rw [hslash] at hc
      exact absurd hc (by decide)
    rw [entriesText_cons he, List.cons_append, List.append_assoc, readEntries, if_neg hslash]
    split
    next hnone => exact absurd (hread.symm.trans hnone) (by simp)
    next b tail hsome =>
      have hpair := hread.symm.trans hsome
      simp only [Option.some.injEq, Prod.mk.injEq] at hpair
      rw [← hpair.1, ← hpair.2, ih has']
      rfl

/-- A tag is read by its name and its entries. -/
theorem readMark_tag {as : List Attribute} (hname : isIdentifier name = true)
    (has : ∀ a ∈ as, ProperEntry a) (void : Bool) :
    readMark (name.toList ++ (entriesText as ++ slash void))
      = some (if void then .void name as else .opening name as) := by
  have hempty : name.toList.isEmpty = false := by
    simpa using toList_ne_nil_of_isIdentifier hname
  have hstop := (follows_entriesText has void).stops
  have htake := takeWhile_name hname hstop
  have hdrop := dropWhile_name hname hstop
  obtain ⟨c, cs, hcs, hc⟩ := exists_cons_of_isIdentifier hname
  -- a name starts with neither a slash nor an exclamation mark
  unfold readMark
  split
  next tail heq =>
    rw [hcs, List.cons_append] at heq
    rw [(List.cons.inj heq).1] at hc
    exact absurd hc (by decide)
  next tail heq =>
    rw [hcs, List.cons_append] at heq
    rw [(List.cons.inj heq).1] at hc
    exact absurd hc (by decide)
  next =>
    rw [htake, hdrop, hempty, readEntries_entriesText has void, String.ofList_toList]
    rfl

/-- **A mark that was written is read again.** -/
theorem readMark_body {m : Mark} (h : Proper m) : readMark (body m) = some m := by
  cases m with
  | doctype name =>
    have hmark : doctypeMark.isPrefixOf (doctypeMark ++ name.toList) = true := by
      rw [List.isPrefixOf_iff_prefix]
      exact List.prefix_append _ _
    show (if doctypeMark.isPrefixOf (doctypeMark ++ name.toList) = true then
      some (Mark.doctype (String.ofList ((doctypeMark ++ name.toList).drop doctypeMark.length)))
      else none) = _
    rw [if_pos hmark, List.drop_left, String.ofList_toList]
  | opening name as =>
    have htag := readMark_tag h.1 h.2 false
    rw [slash, if_neg (by decide), List.append_nil] at htag
    exact htag
  | void name as => exact readMark_tag h.1 h.2 true
  | closing name =>
    show some (Mark.closing (String.ofList name.toList)) = _
    rw [String.ofList_toList]

/-- The characters that would break a mark. -/
def breaks (c : Char) : Prop := c = '<' ∨ c = '>' ∨ c = '\n'

/-- A name has no character in it that breaks a tag. -/
theorem breaks_not_mem_name {c : Char} (hc : breaks c) (hname : isIdentifier name = true) :
    c ∉ name.toList := by
  intro hmem
  have hchar := (isIdentifier_iff.mp hname).1 c hmem
  rcases hc with rfl | rfl | rfl <;> exact absurd hchar (by decide)

/-- Nor has a proper attribute. -/
theorem breaks_not_mem_attribute {c : Char} (hc : breaks c) {a : Attribute} {e : List Char}
    (ha : ProperEntry a) (he : attribute? a = some e) : c ∉ e := by
  obtain ⟨name, value⟩ := a
  obtain ⟨hname, hoff, hvalue⟩ := ha
  have hcname := breaks_not_mem_name hc hname
  cases value with
  | off => exact absurd rfl hoff
  | on =>
    obtain rfl : name.toList = e := by simpa [attribute?] using he
    exact hcname
  | text v =>
    obtain rfl : assign name.toList (escape v.toList) = e := by simpa [attribute?] using he
    have hescape : c ∉ escape v.toList := by
      rcases hc with rfl | rfl | rfl
      · exact not_mem_escape (.inl rfl) _
      · exact not_mem_escape (.inr (.inl rfl)) _
      · exact newline_not_mem_escape (hvalue v rfl)
    have hsigns : c ≠ '=' ∧ c ≠ '"' := by
      rcases hc with rfl | rfl | rfl <;> decide
    simp [assign, hcname, hescape, hsigns]

/-- Nor have several of them. -/
theorem breaks_not_mem_entries {c : Char} (hc : breaks c) {as : List Attribute}
    (has : ∀ a ∈ as, ProperEntry a) : c ∉ entriesText as := by
  unfold entriesText
  rw [List.mem_flatMap]
  rintro ⟨e, he, hmem⟩
  obtain ⟨a, ha, hae⟩ := List.mem_filterMap.mp he
  rcases List.mem_cons.mp hmem with rfl | hmem
  · rcases hc with h | h | h <;> exact absurd h (by decide)
  · exact breaks_not_mem_attribute hc (has a ha) hae hmem

/-- Nothing in a mark ends it early. -/
theorem breaks_not_mem_body {c : Char} (hc : breaks c) {m : Mark} (h : Proper m) :
    c ∉ body m := by
  cases m with
  | doctype name =>
    unfold body
    rw [List.mem_append, not_or]
    refine ⟨?_, ?_⟩
    · rcases hc with rfl | rfl | rfl <;> decide
    · rcases hc with rfl | rfl | rfl
      · exact h.1
      · exact h.2.1
      · exact h.2.2
  | opening name as =>
    unfold body
    rw [List.mem_append, not_or]
    exact ⟨breaks_not_mem_name hc h.1, breaks_not_mem_entries hc h.2⟩
  | void name as =>
    unfold body
    rw [List.mem_append, List.mem_append, not_or, not_or]
    refine ⟨breaks_not_mem_name hc h.1, breaks_not_mem_entries hc h.2, ?_⟩
    rcases hc with rfl | rfl | rfl <;> decide
  | closing name =>
    unfold body
    rw [List.mem_cons, not_or]
    refine ⟨?_, breaks_not_mem_name hc h⟩
    rcases hc with rfl | rfl | rfl <;> decide

end Marks

/-! ## §5. What is written is read again. -/

/-- Items whose marks can all be written. -/
def AllProper (items : List Item) : Prop := ∀ m, Item.mark m ∈ items → Proper m

/-- A mark and the text behind it, from after its `<`. -/
def sectionText (p : Mark × List Char) : List Char := body p.1 ++ '>' :: escape p.2

/-- Written items, cut at their marks. -/
theorem write_eq_gather (items : List Item) :
    write items
      = escape (gather items).1 ++ (gather items).2.flatMap fun p => '<' :: sectionText p := by
  induction items with
  | nil => rfl
  | cons item items ih =>
    cases item with
    | mark m =>
      rw [write_cons, ih, gather]
      simp [writeItem, sectionText, escape]
    | char c =>
      rw [write_cons, ih, gather]
      simp [writeItem, escape]

/-- The tags that are gathered from proper items are proper. -/
theorem proper_of_mem_gather {items : List Item} (h : AllProper items) {p : Mark × List Char}
    (hp : p ∈ (gather items).2) : Proper p.1 := by
  induction items with
  | nil => simp [gather] at hp
  | cons item items ih =>
    have hrest : AllProper items := fun m hm => h m (List.mem_cons_of_mem _ hm)
    cases item with
    | mark m =>
      rw [gather] at hp
      rcases List.mem_cons.mp hp with rfl | hp
      · exact h m List.mem_cons_self
      · exact ih hrest hp
    | char c =>
      rw [gather] at hp
      exact ih hrest hp

/-- **A section** is read back: a tag, and the text behind it. -/
theorem readSection_sectionText {p : Mark × List Char} (h : Proper p.1) :
    readSection (sectionText p) = some (p.1, squeeze p.2) := by
  -- the first `>` is the one behind the body
  have hfree : ∀ c ∈ body p.1, (c != '>') = true := by
    intro c hc
    rw [bne_iff_ne]
    rintro rfl
    exact breaks_not_mem_body (.inr (.inl rfl)) h hc
  have hstop : Stops (· != '>') ('>' :: escape p.2) := stops_cons.mpr (by decide)
  unfold readSection sectionText
  rw [dropWhile_run hfree hstop, takeWhile_run hfree hstop, readMark_body h]
  show some (p.1, squeeze (decode (escape p.2))) = _
  rw [decode_escape]

/-- So are several sections. -/
theorem readSections_map {ps : List (Mark × List Char)} (h : ∀ p ∈ ps, Proper p.1) :
    readSections (ps.map sectionText) = some (ps.map fun p => (p.1, squeeze p.2)) := by
  induction ps with
  | nil => rfl
  | cons p ps ih =>
    rw [List.map_cons, readSections, readSection_sectionText (h p List.mem_cons_self),
      ih fun q hq => h q (List.mem_cons_of_mem _ hq)]
    rfl

theorem intercalate_cons {α : Type} (sep first : List α) (rest : List (List α)) :
    sep.intercalate (first :: rest) = first ++ rest.flatMap fun cs => sep ++ cs := by
  induction rest generalizing first with
  | nil => simp
  | cons cs rest ih =>
    have hcons : sep.intercalate (first :: cs :: rest)
        = first ++ (sep ++ sep.intercalate (cs :: rest)) := by
      simp [List.intercalate]
    rw [hcons, ih, List.flatMap_cons, List.append_assoc]

theorem nil_intercalate {α : Type} (ls : List (List α)) : [].intercalate ls = ls.flatten := by
  cases ls with
  | nil => rfl
  | cons l ls => simp [intercalate_cons]

/-- What goes through lists put together goes through lists that are joined. -/
theorem map_intercalate {α β : Type} {f : List α → List β} (hnil : f [] = [])
    (happend : ∀ a b, f (a ++ b) = f a ++ f b) (sep : List α) (ls : List (List α)) :
    f (sep.intercalate ls) = (f sep).intercalate (ls.map f) := by
  cases ls with
  | nil => exact hnil
  | cons l ls =>
    rw [List.map_cons, intercalate_cons, intercalate_cons, happend]
    congr 1
    induction ls with
    | nil => exact hnil
    | cons m ls ih =>
      rw [List.flatMap_cons, List.map_cons, List.flatMap_cons, happend, happend, ih]

/-- **What is written is read again**, up to blanks. -/
theorem readMarkup_write {items : List Item} (h : AllProper items) :
    readMarkup (write items) = some (gather (strip items)) := by
  have hproper : ∀ p ∈ (gather items).2, Proper p.1 := fun p hp => proper_of_mem_gather h hp
  -- every `<` in the written text opens a mark, so cutting there gives the sections
  have hjoin : write items
      = ['<'].intercalate (escape (gather items).1 :: (gather items).2.map sectionText) := by
    rw [write_eq_gather, intercalate_cons, List.flatMap_map]
    rfl
  have hfree : ∀ cs ∈ escape (gather items).1 :: (gather items).2.map sectionText, '<' ∉ cs := by
    rw [List.forall_mem_cons]
    refine ⟨not_mem_escape (.inl rfl) _, fun cs hcs => ?_⟩
    obtain ⟨p, hp, rfl⟩ := List.mem_map.mp hcs
    unfold sectionText
    rw [List.mem_append, List.mem_cons, not_or, not_or]
    exact ⟨breaks_not_mem_body (.inl rfl) (hproper p hp), by decide, not_mem_escape (.inl rfl) _⟩
  unfold readMarkup
  rw [hjoin, List.splitOn_intercalate _ hfree (by simp)]
  show (readSections ((gather items).2.map sectionText)).map _ = _
  rw [readSections_map hproper, decode_escape, gather_strip]
  rfl

end Offside.Markup
