/-
  Offside.Proofs.RoundTrip
  ────────────────────────
  **READING UNDOES PRINTING.**

  A forest is printed with one line per node, every level one space deeper
  than the level above it.  The proof follows a printed page through the
  stages of the reader:

    · `rows_print`      the rows of the printed page are the rows printed,
    · `read_headText`   the head of a printed tag line is its tag,
    · `forest_step`     the rows of one node nest into that node again,
    · `forest_rows`     and so do the rows of a whole level.
-/
import Offside.Proofs.WellFormed

namespace Offside.Printing

open Text Head Document

/-! ## §1. The printer. -/

/-- A value with a backslash before every backslash and quotation mark. -/
def escape (value : List Char) : List Char :=
  value.flatMap fun c => if c == '\\' || c == '"' then ['\\', c] else [c]

/-- Classes, each after a dot. -/
def classesText (names : List String) : List Char :=
  names.flatMap fun name => '.' :: name.toList

/-- The id after a hash sign, if there is one. -/
def idText : Option String → List Char
  | none => []
  | some name => '#' :: name.toList

/-- An attribute in a block of its own. -/
def attributeText (a : Attribute) : List Char :=
  match a.value with
  | .text value => '[' :: (a.name.toList ++ '=' :: '"' :: (escape value.toList ++ ['"', ']']))
  | _ => '[' :: (a.name.toList ++ [']'])

/-- Attributes, one block after the other. -/
def attributesText (as : List Attribute) : List Char := as.flatMap attributeText

/-- The head of a tag line, without content. -/
def headText (tag : Tag) : List Char :=
  tag.name.toList
    ++ (classesText tag.classes ++ (idText tag.id ++ attributesText tag.attributes))

/-- A text is printed in quotation marks on a piped line, or as a block below
a bare pipe if it has several lines. -/
def textRows (depth : Nat) (content : List Char) : List Row :=
  if '\n' ∈ content then
    ⟨depth, ['|']⟩ :: (lines content).map fun line => ⟨depth + 1, line⟩
  else [⟨depth, '|' :: '"' :: (content ++ ['"'])⟩]

mutual

/-- The rows of a node at a depth. -/
def nodeRows (depth : Nat) : Node → List Row
  | .doctype name => [⟨depth, doctypeMark ++ name.toList⟩]
  | .text content => textRows depth content.toList
  | .void tag => [⟨depth, headText tag⟩]
  | .element tag children => ⟨depth, headText tag⟩ :: forestRows (depth + 1) children

/-- The rows of the nodes of one level. -/
def forestRows (depth : Nat) : List Node → List Row
  | [] => []
  | node :: rest => nodeRows depth node ++ forestRows depth rest

end

/-- A row behind as many spaces as it is indented. -/
def rowText (row : Row) : List Char := List.replicate row.indent ' ' ++ row.text

/-- **The printer.** -/
def print (forest : List Node) : String :=
  String.ofList (unlines ((forestRows 0 forest).map rowText))

/-! ## §2. What can be printed. -/

/-- A value that can be printed: it is present without a text, or its text has
one line and is not too long. -/
def isPrintableValue : AttributeValue → Bool
  | .on => true
  | .off => false
  | .text value => !value.toList.contains '\n' && decide (value.toList.length ≤ 10000)

/-! ## §3. Heads. -/

section Heads

variable {p : Char → Bool} {rest : List Char}

/-- Classes begin with a dot, if there are any. -/
theorem stops_classesText (h : p '.' = false) (names : List String) :
    Stops p (classesText names) := by
  cases names with
  | nil => exact stops_nil
  | cons name names => simpa [classesText] using h

/-- An id begins with a hash, if there is one. -/
theorem stops_idText (h : p '#' = false) (tagId : Option String) : Stops p (idText tagId) := by
  cases tagId with
  | none => exact stops_nil
  | some name => simpa [idText] using h

/-- An attribute begins with a bracket. -/
theorem attributeText_eq_cons (a : Attribute) : ∃ cs, attributeText a = '[' :: cs := by
  unfold attributeText
  split <;> exact ⟨_, rfl⟩

/-- So do attributes, if there are any. -/
theorem stops_attributesText (h : p '[' = false) (as : List Attribute) :
    Stops p (attributesText as) := by
  cases as with
  | nil => exact stops_nil
  | cons a as =>
    obtain ⟨cs, hcs⟩ := attributeText_eq_cons a
    simpa [attributesText, hcs] using h

/-- There is no gap where none starts. -/
theorem gap_refl (h : Stops isGap rest) : Gap rest rest := by
  rw [gap_iff]
  exact dropWhile_of_stops h

/-- Nor where a name starts. -/
theorem gap_name {name : String} (h : isIdentifier name = true) :
    Gap (name.toList ++ rest) (name.toList ++ rest) := by
  obtain ⟨c, cs, hname, hc⟩ := exists_cons_of_isIdentifier h
  apply gap_refl
  rw [hname, List.cons_append, stops_cons]
  exact isGap_of_isBlank (isBlank_of_isNameChar hc)

/-- **Printed classes** are read back. -/
theorem classes_classesText {names : List String} (h : ∀ name ∈ names, isIdentifier name = true)
    (hname : Stops isNameChar rest) (hdot : Stops (· == '.') rest) :
    Classes (classesText names ++ rest) names rest := by
  induction names with
  | nil => exact .none hdot
  | cons name names ih =>
    have hmore := ih fun n hn => h n (List.mem_cons_of_mem _ hn)
    have hstop : Stops isNameChar (classesText names ++ rest) :=
      stops_append (stops_classesText (by decide) names) hname
    have hid : Identifier (name.toList ++ (classesText names ++ rest)) name
        (classesText names ++ rest) :=
      identifier_iff.mpr ⟨h name List.mem_cons_self, rfl, hstop⟩
    show Classes (('.' :: name.toList ++ classesText names) ++ rest) (name :: names) rest
    rw [List.append_assoc]
    exact .more hid hmore

/-- **A printed id** is read back. -/
theorem id_idText {tagId : Option String} (h : ∀ name ∈ tagId, isIdentifier name = true)
    (hname : Stops isNameChar rest) (hhash : Stops (· == '#') rest) :
    Id (idText tagId ++ rest) tagId rest := by
  cases tagId with
  | none => exact .none hhash
  | some name => exact .some (identifier_iff.mpr ⟨h name rfl, rfl, hname⟩)

/-- An escaped value says what it was made from. -/
theorem escaped_escape (value : List Char) : Escaped '"' (escape value) value := by
  induction value with
  | nil => exact .nil
  | cons c value ih =>
    show Escaped '"' ((if c == '\\' || c == '"' then ['\\', c] else [c]) ++ escape value) (c :: value)
    split
    next => exact .escape ih
    next hc =>
      have hc' : c ≠ '\\' ∧ c ≠ '"' := by simpa using hc
      exact .plain hc'.2 hc'.1 ih

/-- A printed attribute is a block of this one attribute. -/
theorem block_attributeText {a : Attribute} (hname : isIdentifier a.name = true)
    (hvalue : isPrintableValue a.value = true) (hgap : Stops isGap rest) :
    Block (attributeText a ++ rest) [a] rest := by
  obtain ⟨name, value⟩ := a
  cases value with
  | off => exact absurd hvalue (by simp [isPrintableValue])
  | on =>
    -- a flag ends at the bracket, not at an equals sign
    show Block ('[' :: (name.toList ++ [']'] ++ rest)) _ _
    rw [List.append_assoc]
    have hid : Identifier (name.toList ++ ']' :: rest) name (']' :: rest) :=
      identifier_iff.mpr ⟨hname, rfl, stops_cons.mpr (by decide)⟩
    have hclose : Gap (']' :: rest) (']' :: rest) := gap_refl (stops_cons.mpr (by decide))
    exact .mk (gap_name hname) (.more (.flag hid hclose (by simp)) hclose .none) (by simp)
      (gap_refl hgap)
  | text v =>
    have hlen : v.toList.length ≤ 10000 := by
      simp only [isPrintableValue, Bool.and_eq_true, decide_eq_true_iff] at hvalue
      exact hvalue.2
    have hassoc : attributeText ⟨name, .text v⟩ ++ rest
        = '[' :: (name.toList ++ '=' :: '"' :: (escape v.toList ++ '"' :: ']' :: rest)) := by
      simp [attributeText]
    have hid : Identifier (name.toList ++ '=' :: '"' :: (escape v.toList ++ '"' :: ']' :: rest))
        name ('=' :: '"' :: (escape v.toList ++ '"' :: ']' :: rest)) :=
      identifier_iff.mpr ⟨hname, rfl, stops_cons.mpr (by decide)⟩
    have hquoted : Quoted '"' (escape v.toList ++ '"' :: ']' :: rest) v (']' :: rest) :=
      ⟨escape v.toList, v.toList, rfl, escaped_escape _, hlen, String.ofList_toList.symm⟩
    have hclose : Gap (']' :: rest) (']' :: rest) := gap_refl (stops_cons.mpr (by decide))
    rw [hassoc]
    exact .mk (gap_name hname)
      (.more (.set hid (gap_refl (stops_cons.mpr (by decide))) (gap_refl (stops_cons.mpr (by decide)))
        (.quoted (by decide) hquoted)) hclose .none)
      (by simp) (gap_refl hgap)

/-- **Printed attributes** are read back. -/
theorem blocks_attributesText {as : List Attribute}
    (h : ∀ a ∈ as, isIdentifier a.name = true ∧ isPrintableValue a.value = true) :
    Blocks (attributesText as) as [] := by
  induction as with
  | nil => exact .none stops_nil
  | cons a as ih =>
    obtain ⟨hname, hvalue⟩ := h a List.mem_cons_self
    have hstop : Stops isGap (attributesText as) := stops_attributesText (by decide) as
    exact .more (block_attributeText hname hvalue hstop)
      (ih fun b hb => h b (List.mem_cons_of_mem _ hb))

/-- **The head of a printed tag line is its tag.** -/
theorem read_headText {tag : Tag} (h : tagConforms isPrintableValue tag = true) :
    Head.read (headText tag) = .ok ⟨tag, .none, (headText tag).length⟩ := by
  obtain ⟨hname, -, hclasses, hid, hattributes⟩ := tagConforms_iff.mp h
  -- each part of the head ends where the sign of a later part stands
  have hA : ∀ {p : Char → Bool}, p '[' = false → Stops p (attributesText tag.attributes) :=
    fun hp => stops_attributesText hp _
  have hI : ∀ {p : Char → Bool}, p '#' = false → p '[' = false →
      Stops p (idText tag.id ++ attributesText tag.attributes) :=
    fun hp hp' => stops_append (stops_idText hp _) (hA hp')
  apply read_of_headText
  refine ⟨_, _, _, [], [], identifier_iff.mpr ⟨hname, rfl, ?_⟩,
    classes_classesText hclasses (hI (by decide) (by decide)) (hI (by decide) (by decide)),
    id_idText hid (hA (by decide)) (hA (by decide)), blocks_attributesText hattributes,
    .nothing (gap_refl stops_nil), rfl⟩
  exact stops_append (stops_classesText (by decide) _) (hI (by decide) (by decide))

end Heads

/-! ## §4. Rows. -/

/-- A piece of a line that stays on the line and does not end in a blank. -/
def Tight (cs : List Char) : Prop := Stops isBlank cs.reverse ∧ '\n' ∉ cs

theorem tight_nil : Tight [] := ⟨stops_nil, by simp⟩

/-- Tight texts in a row are tight. -/
theorem tight_append {a b : List Char} (ha : Tight a) (hb : Tight b) : Tight (a ++ b) := by
  constructor
  · rw [List.reverse_append]
    exact stops_append hb.1 ha.1
  · rw [List.mem_append]
    exact not_or.mpr ⟨ha.2, hb.2⟩

/-- A character that is not blank may stand in front of a tight text. -/
theorem tight_cons {c : Char} {cs : List Char} (hc : isBlank c = false) (h : Tight cs) :
    Tight (c :: cs) := by
  have hnewline : c ≠ '\n' := by
    rintro rfl
    exact absurd hc (by decide)
  exact tight_append (a := [c]) ⟨by simpa using hc, by simpa using hnewline.symm⟩ h

/-- So may several tight texts. -/
theorem tight_flatMap {α : Type} {f : α → List Char} {xs : List α}
    (h : ∀ x ∈ xs, Tight (f x)) : Tight (xs.flatMap f) := by
  induction xs with
  | nil => exact tight_nil
  | cons x xs ih =>
    rw [List.flatMap_cons]
    exact tight_append (h x List.mem_cons_self) (ih fun y hy => h y (List.mem_cons_of_mem _ hy))

/-- A text without blanks is tight. -/
theorem tight_of_not_blank {cs : List Char} (h : ∀ c ∈ cs, isBlank c = false) : Tight cs := by
  induction cs with
  | nil => exact tight_nil
  | cons c cs ih =>
    exact tight_cons (h c List.mem_cons_self) (ih fun d hd => h d (List.mem_cons_of_mem _ hd))

/-- A name is tight. -/
theorem tight_name {name : String} (h : isIdentifier name = true) : Tight name.toList :=
  tight_of_not_blank fun c hc => isBlank_of_isNameChar ((isIdentifier_iff.mp h).1 c hc)

/-- Escaping puts no newline in. -/
theorem newline_not_mem_escape {value : List Char} (h : '\n' ∉ value) : '\n' ∉ escape value := by
  unfold escape
  rw [List.mem_flatMap]
  rintro ⟨c, hc, hmem⟩
  have hne : '\n' ≠ c := by
    rintro rfl
    exact h hc
  split at hmem
  · simp [hne] at hmem
  · simp [hne] at hmem

/-- A printed attribute is tight. -/
theorem tight_attributeText {a : Attribute} (hname : isIdentifier a.name = true)
    (hvalue : isPrintableValue a.value = true) : Tight (attributeText a) := by
  unfold attributeText
  split
  next v hv =>
    have hnewline : '\n' ∉ v.toList := by
      rw [hv] at hvalue
      simp only [isPrintableValue, Bool.and_eq_true, Bool.not_eq_true', List.contains_eq_mem,
        decide_eq_false_iff_not] at hvalue
      exact hvalue.1
    -- whatever the value ends in, a quotation mark and a bracket follow
    have hend : Tight (escape v.toList ++ ['"', ']']) := by
      constructor
      · rw [List.reverse_append]
        exact stops_cons.mpr (by decide)
      · rw [List.mem_append]
        exact not_or.mpr ⟨newline_not_mem_escape hnewline, by decide⟩
    exact tight_cons (by decide) (tight_append (tight_name hname)
      (tight_cons (by decide) (tight_cons (by decide) hend)))
  next =>
    exact tight_cons (by decide)
      (tight_append (tight_name hname) (tight_cons (by decide) tight_nil))

/-- A printed head is a line without blanks at its ends. -/
theorem isTrimmedLine_headText {tag : Tag} (h : tagConforms isPrintableValue tag = true) :
    isTrimmedLine (headText tag) = true := by
  obtain ⟨hname, -, hclasses, hid, hattributes⟩ := tagConforms_iff.mp h
  have htight : Tight (headText tag) := by
    refine tight_append (tight_name hname) (tight_append ?_ (tight_append ?_ ?_))
    · exact tight_flatMap fun name hmem => tight_cons (by decide) (tight_name (hclasses name hmem))
    · cases htag : tag.id with
      | none => exact tight_nil
      | some name => exact tight_cons (by decide) (tight_name (hid name htag))
    · exact tight_flatMap fun a ha => tight_attributeText (hattributes a ha).1 (hattributes a ha).2
  obtain ⟨c, cs, hcs, hchar⟩ := exists_cons_of_isIdentifier hname
  have hcons : headText tag = c :: (cs ++ (classesText tag.classes
      ++ (idText tag.id ++ attributesText tag.attributes))) := by
    unfold headText
    rw [hcs]
    rfl
  refine isTrimmedLine_of_stops (by simp [hcons]) ?_ htight.1 htight.2
  rw [hcons, stops_cons]
  exact isBlank_of_isNameChar hchar

/-- So is a text in quotes. -/
theorem isTrimmedLine_quoted {content : List Char} (h : '\n' ∉ content) :
    isTrimmedLine ('|' :: '"' :: (content ++ ['"'])) = true := by
  refine isTrimmedLine_of_stops (by simp) (stops_cons.mpr (by decide)) ?_ (by simp [h])
  rw [← List.cons_append, ← List.cons_append, List.reverse_append]
  exact stops_cons.mpr (by decide)

/-- So is a document type. -/
theorem isTrimmedLine_doctype {name : List Char} (h : isTrimmedLine name = true) :
    isTrimmedLine (doctypeMark ++ name) = true := by
  obtain ⟨hne, htrim, hnewline⟩ := isTrimmedLine_iff.mp h
  have hlast : Stops isBlank name.reverse := by
    rw [← htrim]
    exact stops_reverse_trim name
  refine isTrimmedLine_of_stops (by simp [hne]) (stops_cons.mpr (by decide)) ?_ ?_
  · rw [List.reverse_append]
    -- the mark itself ends in a blank, but a name follows
    cases hrev : name.reverse with
    | nil => exact absurd (List.reverse_eq_nil_iff.mp hrev) hne
    | cons c cs =>
      rw [hrev, stops_cons] at hlast
      exact stops_cons.mpr hlast
  · rw [List.mem_append]
    exact not_or.mpr ⟨by decide, hnewline⟩

/-- A row that may be printed inside a level. -/
def Fine (depth : Nat) (row : Row) : Prop := depth ≤ row.indent ∧ isTrimmedLine row.text = true

/-- The rows of a text are fine at its depth. -/
theorem fine_textRows {depth : Nat} {content : List Char}
    (h : isTextContent content = true) :
    ∀ row ∈ textRows depth content, Fine depth row := by
  intro row hrow
  unfold textRows at hrow
  split at hrow
  next hnewline =>
    rcases List.mem_cons.mp hrow with rfl | hrow
    · refine ⟨Nat.le_refl _, ?_⟩
      show isTrimmedLine ['|'] = true
      decide
    · obtain ⟨line, hline, rfl⟩ := List.mem_map.mp hrow
      exact ⟨Nat.le_succ _, isTextContent_iff.mp h hnewline line hline⟩
  next hnewline =>
    rw [List.mem_singleton.mp hrow]
    exact ⟨Nat.le_refl _, isTrimmedLine_quoted hnewline⟩

mutual

/-- The rows of a node that conforms are fine at its depth. -/
theorem fine_nodeRows (depth : Nat) (node : Node)
    (h : conforms isPrintableValue (depth + 1) node = true) :
    ∀ row ∈ nodeRows depth node, Fine depth row := by
  intro row hrow
  cases node with
  | doctype name =>
    simp only [conforms, Bool.and_eq_true] at h
    rw [nodeRows, List.mem_singleton] at hrow
    rw [hrow]
    exact ⟨Nat.le_refl _, isTrimmedLine_doctype h.2⟩
  | text content => exact fine_textRows h row hrow
  | void tag =>
    simp only [conforms, Bool.and_eq_true] at h
    rw [nodeRows, List.mem_singleton] at hrow
    rw [hrow]
    exact ⟨Nat.le_refl _, isTrimmedLine_headText h.1.2⟩
  | element tag children =>
    simp only [conforms, Bool.and_eq_true] at h
    rw [nodeRows, List.mem_cons] at hrow
    rcases hrow with rfl | hrow
    · exact ⟨Nat.le_refl _, isTrimmedLine_headText h.1.1.2⟩
    · have hfine := fine_forestRows (depth + 1) children h.2 row hrow
      exact ⟨Nat.le_of_succ_le hfine.1, hfine.2⟩

/-- The rows of a forest that conforms are fine at its depth. -/
theorem fine_forestRows (depth : Nat) (nodes : List Node)
    (h : allConform isPrintableValue (depth + 1) nodes = true) :
    ∀ row ∈ forestRows depth nodes, Fine depth row := by
  intro row hrow
  cases nodes with
  | nil => simp [forestRows] at hrow
  | cons node rest =>
    rw [allConform, Bool.and_eq_true] at h
    rw [forestRows, List.mem_append] at hrow
    rcases hrow with hrow | hrow
    · exact fine_nodeRows depth node h.1 row hrow
    · exact fine_forestRows depth rest h.2 row hrow

end

/-- The rows of a node: one at its depth, and deeper ones below it. -/
theorem nodeRows_eq_cons {depth : Nat} {node : Node}
    (h : conforms isPrintableValue (depth + 1) node = true) :
    ∃ text inner, nodeRows depth node = ⟨depth, text⟩ :: inner
      ∧ ∀ row ∈ inner, depth < row.indent := by
  cases node with
  | doctype name => exact ⟨_, [], rfl, by simp⟩
  | text content =>
    rw [nodeRows, textRows]
    split
    next =>
      refine ⟨_, _, rfl, fun row hrow => ?_⟩
      obtain ⟨line, -, rfl⟩ := List.mem_map.mp hrow
      exact Nat.lt_succ_self _
    next => exact ⟨_, [], rfl, by simp⟩
  | void tag => exact ⟨_, [], rfl, by simp⟩
  | element tag children =>
    simp only [conforms, Bool.and_eq_true] at h
    exact ⟨_, _, rfl, fun row hrow => (fine_forestRows (depth + 1) children h.2 row hrow).1⟩

/-- No level starts with a row that is deeper than the level. -/
theorem stops_forestRows {depth : Nat} {nodes : List Node}
    (h : allConform isPrintableValue (depth + 1) nodes = true) :
    Stops (fun row : Row => decide (depth < row.indent)) (forestRows depth nodes) := by
  cases nodes with
  | nil => exact stops_nil
  | cons node rest =>
    rw [allConform, Bool.and_eq_true] at h
    obtain ⟨text, inner, hrows, -⟩ := nodeRows_eq_cons h.1
    rw [forestRows, hrows, List.cons_append, stops_cons]
    simp

/-- A printed row is read as a row. -/
theorem row?_rowText {row : Row} (h : isTrimmedLine row.text = true) :
    row? (rowText row) = some row := by
  obtain ⟨hne, htrim, -⟩ := isTrimmedLine_iff.mp h
  have hspaces : ∀ c ∈ List.replicate row.indent ' ', isBlank c = true := by
    intro c hc
    rw [List.eq_of_mem_replicate hc]
    exact isBlank_space
  have htext : trim (rowText row) = row.text := by
    unfold rowText
    rw [trim_blank_append hspaces, htrim]
  -- the indentation ends where the text starts, with something that is no blank
  have hstop : Stops (· == ' ') row.text := by
    have hblank := stops_trim row.text
    rw [htrim] at hblank
    cases hcs : row.text with
    | nil => exact stops_nil
    | cons c cs =>
      rw [hcs, stops_cons] at hblank
      rw [stops_cons, beq_eq_false_iff_ne]
      rintro rfl
      exact absurd hblank (by decide)
  have hindent : (rowText row).takeWhile (· == ' ') = List.replicate row.indent ' ' := by
    refine takeWhile_run (fun c hc => ?_) hstop
    rw [List.eq_of_mem_replicate hc]
    rfl
  unfold row?
  rw [htext, hindent, if_neg hne, List.length_replicate]

/-- **The rows of a printed page are the rows that were printed.** -/
theorem rows_print {nodes : List Node} (hne : nodes ≠ [])
    (h : allConform isPrintableValue 1 nodes = true) :
    rows (print nodes).toList = forestRows 0 nodes := by
  have hfine := fine_forestRows 0 nodes h
  obtain ⟨node, rest, rfl⟩ := List.exists_cons_of_ne_nil hne
  -- the first row is not indented, so trimming the whole page does nothing to it
  obtain ⟨text, inner, hrows⟩ :
      ∃ text inner, forestRows 0 (node :: rest) = ⟨0, text⟩ :: inner := by
    rw [allConform, Bool.and_eq_true] at h
    obtain ⟨text, inner, hrows, -⟩ := nodeRows_eq_cons h.1
    exact ⟨text, inner ++ forestRows 0 rest, by rw [forestRows, hrows, List.cons_append]⟩
  have hlines : lines (print (node :: rest)).toList
      = (forestRows 0 (node :: rest)).map rowText := by
    unfold print
    rw [String.toList_ofList]
    apply lines_unlines
    · simp [hrows]
    · intro line hline
      obtain ⟨row, hrow, rfl⟩ := List.mem_map.mp hline
      have htrimmed := isTrimmedLine_iff.mp (hfine row hrow).2
      unfold rowText
      rw [List.mem_append]
      refine not_or.mpr ⟨fun hmem => ?_, htrimmed.2.2⟩
      exact absurd (List.eq_of_mem_replicate hmem) (by decide)
  have hread : ((forestRows 0 (node :: rest)).map rowText).filterMap row?
      = forestRows 0 (node :: rest) := by
    rw [List.filterMap_map]
    calc (forestRows 0 (node :: rest)).filterMap (row? ∘ rowText)
        = (forestRows 0 (node :: rest)).filterMap some :=
          List.filterMap_congr fun row hrow => row?_rowText (hfine row hrow).2
      _ = forestRows 0 (node :: rest) := List.filterMap_some
  unfold rows
  rw [hlines, hread, hrows]
  rfl

/-! ## §5. Nesting. -/

/-- A line shows a row when it has its indentation and text, and the kind that
this text makes it. -/
structure Shows (line : Line) (row : Row) : Prop where
  same : line.row = row
  kind : LineKind.ofText? row.text = some line.kind

section Nesting

variable {line : Line} {depth : Nat}

/-- A line that shows a row is indented like it. -/
theorem Shows.indent {row : Row} (h : Shows line row) : line.indent = row.indent := by
  rw [← h.same, Line.row_indent]

/-- A line that shows a row has its text. -/
theorem Shows.text {row : Row} (h : Shows line row) : line.text.toList = row.text := by
  rw [← h.same, Line.row_text]

/-- The kind of a line is that of the row that it shows. -/
theorem Shows.kind_eq {row : Row} {kind : LineKind} (h : Shows line row)
    (hkind : LineKind.ofText? row.text = some kind) : line.kind = kind :=
  Option.some.inj (h.kind.symm.trans hkind)

/-- The mark of a document type makes a line one. -/
theorem ofText?_doctype (name : List Char) :
    LineKind.ofText? (doctypeMark ++ name) = some .doctype := by
  have hmark : doctypeMark = ['!', 'D', 'O', 'C', 'T', 'Y', 'P', 'E', ' '] := by decide
  rw [hmark]
  simp [LineKind.ofText?, hmark]

/-- A bar makes a line a text. -/
theorem ofText?_pipe (cs : List Char) : LineKind.ofText? ('|' :: cs) = some .pipe := by
  have hmark : doctypeMark = '!' :: "DOCTYPE ".toList := by decide
  simp [LineKind.ofText?, hmark]

/-- A letter makes a line a tag. -/
theorem ofText?_letter {c : Char} (hc : c.isAlpha = true) (cs : List Char) :
    LineKind.ofText? (c :: cs) = some .tag := by
  have hmark : doctypeMark = '!' :: "DOCTYPE ".toList := by decide
  have hbang : '!' ≠ c := by
    rintro rfl
    exact absurd hc (by decide)
  have hpipe : c ≠ '|' := by
    rintro rfl
    exact absurd hc (by decide)
  simp [LineKind.ofText?, hmark, hbang, hpipe, hc]

/-- The line of a document type is read as a leaf. -/
theorem role_doctype {name : String} (h : Shows line ⟨depth, doctypeMark ++ name.toList⟩)
    (htrim : isTrimmedLine name.toList = true) :
    role 1 line = .ok (.leaf (.doctype name)) := by
  unfold role
  rw [h.kind_eq (ofText?_doctype _), h.text]
  simp only [Nat.lt_irrefl, if_false]
  rw [List.drop_left, (isTrimmedLine_iff.mp htrim).2.1, String.ofList_toList]

/-- The role of a text is read off what is behind its bar. -/
theorem role_pipe {cs : List Char} (h : Shows line ⟨depth, '|' :: cs⟩) (level : Nat) :
    role level line = .ok (pipeRole ('|' :: cs)) := by
  unfold role
  rw [h.kind_eq (ofText?_pipe _), h.text]

/-- Whatever a text is, in quotation marks it is read as it is. -/
theorem pipeRole_quoted (content : List Char) :
    pipeRole ('|' :: '"' :: (content ++ ['"'])) = .leaf (.text (String.ofList content)) := by
  have htrim : trim ('"' :: (content ++ ['"'])) = '"' :: (content ++ ['"']) := by
    apply trim_of_stops (stops_cons.mpr (by decide))
    rw [← List.cons_append, List.reverse_append]
    exact stops_cons.mpr (by decide)
  have hunquote : unquote ('"' :: (content ++ ['"'])) = content := by
    simp [unquote, isQuote]
  unfold pipeRole
  simp only [List.drop_succ_cons, List.drop_zero, htrim, hunquote]
  rfl

/-- The role of a tag is read off its head. -/
theorem role_tag {tag : Tag} (h : Shows line ⟨depth, headText tag⟩)
    (htag : tagConforms isPrintableValue tag = true) {level : Nat} (hlevel : level ≤ 128) :
    role level line = headRole line ⟨tag, .none, (headText tag).length⟩ := by
  obtain ⟨-, ⟨c, hc, hletter⟩, -⟩ := tagConforms_iff.mp htag
  obtain ⟨cs, hcs⟩ : ∃ cs, tag.name.toList = c :: cs := List.head?_eq_some_iff.mp hc
  have hkind : LineKind.ofText? (headText tag) = some .tag := by
    rw [headText, hcs, List.cons_append]
    exact ofText?_letter hletter _
  have hread : Head.read line.text.toList = .ok ⟨tag, .none, (headText tag).length⟩ := by
    rw [h.text]
    exact read_headText htag
  have hmax : ¬ maxDepth < level := Nat.not_lt.mpr hlevel
  unfold role
  rw [h.kind_eq hkind]
  show tagRole level line = _
  unfold tagRole
  rw [if_neg hmax, hread]

/-! ### What a line does, by its role. -/

variable {done : List Node} {rest inner : List Line}

/-- A leaf goes to the nodes that are done. -/
theorem forest_leaf {node : Node} (h : role depth line = .ok (.leaf node)) :
    forest depth done (line :: rest) = forest depth (node :: done) rest := by
  rw [forest, h]

/-- A block of text takes all lines below it. -/
theorem forest_textBlock (h : role depth line = .ok .textBlock) :
    forest depth done (line :: rest)
      = forest depth (.text (blockText (below line rest)) :: done) (beyond line rest) := by
  rw [forest, h]

/-- A parent takes all lines below it as its children. -/
theorem forest_parent {tag : Tag} {children lead : List Node}
    (h : role depth line = .ok (.parent tag lead))
    (hchildren : forest (depth + 1) lead (below line rest) = .ok children) :
    forest depth done (line :: rest)
      = forest depth (.element tag children :: done) (beyond line rest) := by
  rw [forest, h]
  simp only [hchildren]

/-- The lines below a line are those up to the first that is not indented further. -/
theorem below_append (hinner : ∀ l ∈ inner, line.indent < l.indent)
    (hrest : Stops (fun l : Line => decide (line.indent < l.indent)) rest) :
    below line (inner ++ rest) = inner := by
  unfold below
  exact takeWhile_run (fun l hl => decide_eq_true (hinner l hl)) hrest

/-- The lines beyond are those from there on. -/
theorem beyond_append (hinner : ∀ l ∈ inner, line.indent < l.indent)
    (hrest : Stops (fun l : Line => decide (line.indent < l.indent)) rest) :
    beyond line (inner ++ rest) = rest := by
  unfold beyond
  exact dropWhile_run (fun l hl => decide_eq_true (hinner l hl)) hrest

/-- Lines show rows, one each. -/
def ShowAll (ls : List Line) (rs : List Row) : Prop := List.Forall₂ Shows ls rs

/-- A level that shows rows of which the first is not deeper stops a run of
deeper lines. -/
theorem stops_of_showAll {ls : List Line} {rs : List Row} (h : ShowAll ls rs)
    (hstop : Stops (fun row : Row => decide (depth < row.indent)) rs) :
    Stops (fun l : Line => decide (depth < l.indent)) ls := by
  cases h with
  | nil => exact stops_nil
  | cons hline hrest =>
    rw [stops_cons] at hstop ⊢
    rw [hline.indent]
    exact hstop

/-- Lines that show deep rows are deep. -/
theorem deeper_of_showAll {ls : List Line} {rs : List Row} (h : ShowAll ls rs)
    (hdeep : ∀ row ∈ rs, depth < row.indent) : ∀ l ∈ ls, depth < l.indent := by
  induction h with
  | nil => simp
  | cons hline _ ih =>
    intro l hl
    rcases List.mem_cons.mp hl with rfl | hl
    · rw [hline.indent]
      exact hdeep _ List.mem_cons_self
    · exact ih (fun row hrow => hdeep row (List.mem_cons_of_mem _ hrow)) l hl

/-- A block that shows the lines of a text is that text. -/
theorem blockText_of_showAll {ls : List Line} {content : String}
    (h : ShowAll ls ((lines content.toList).map fun l => ⟨depth, l⟩)) :
    blockText ls = content := by
  have htexts : ∀ {ls : List Line} {ts : List (List Char)},
      ShowAll ls (ts.map fun l => ⟨depth, l⟩) → ls.map (fun l => l.text.toList) = ts := by
    intro ls ts hts
    induction ts generalizing ls with
    | nil =>
      cases hts
      rfl
    | cons t ts ih =>
      cases hts with
      | cons hline hrest => rw [List.map_cons, hline.text, ih hrest]
  unfold blockText
  rw [htexts h, unlines_lines, String.ofList_toList]

/-- **One node.**  The lines that show a node nest into that node again, given
that the lines that show its children do. -/
theorem forest_step {node : Node} {front : List Line}
    (hnode : conforms isPrintableValue (depth + 1) node = true)
    (hfront : ShowAll front (nodeRows depth node))
    (hrest : Stops (fun l : Line => decide (depth < l.indent)) rest)
    (hchildren : ∀ tag children, node = .element tag children →
      ∀ ls, ShowAll ls (forestRows (depth + 1) children) →
        forest (depth + 2) [] ls = .ok children) :
    forest (depth + 1) done (front ++ rest) = forest (depth + 1) (node :: done) rest := by
  obtain ⟨text, inner, hrows, hdeep⟩ := nodeRows_eq_cons hnode
  rw [hrows] at hfront
  obtain ⟨line, block, hline, hblock, rfl⟩ := List.forall₂_cons_right_iff.mp hfront
  -- the run below the line is the rest of the node, and no line behind it
  have hindent : line.indent = depth := hline.indent
  have hdeeper : ∀ l ∈ block, line.indent < l.indent := by
    rw [hindent]
    exact deeper_of_showAll hblock hdeep
  rw [← hindent] at hrest
  have hbelow : below line (block ++ rest) = block := below_append hdeeper hrest
  have hbeyond : beyond line (block ++ rest) = rest := beyond_append hdeeper hrest
  rw [List.cons_append]
  cases node with
  | doctype name =>
    obtain ⟨htext, rfl⟩ : doctypeMark ++ name.toList = text ∧ [] = inner := by
      simpa [nodeRows] using hrows
    simp only [conforms, Bool.and_eq_true, beq_iff_eq] at hnode
    cases hblock
    rw [← htext] at hline
    rw [hnode.1, List.nil_append]
    exact forest_leaf (role_doctype hline hnode.2)
  | text content =>
    rw [nodeRows, textRows] at hrows
    split at hrows
    next hnewline =>
      -- several lines: a bare pipe whose block is the run below it
      obtain ⟨htext, rfl⟩ : ['|'] = text ∧ _ = inner := by simpa using hrows
      rw [← htext] at hline
      rw [forest_textBlock (role_pipe hline _), hbelow, hbeyond, blockText_of_showAll hblock]
    next hnewline =>
      -- one line: quoted, with nothing below it
      obtain ⟨htext, rfl⟩ : '|' :: '"' :: (content.toList ++ ['"']) = text ∧ [] = inner := by
        simpa using hrows
      cases hblock
      rw [← htext] at hline
      have hrole := role_pipe hline (depth + 1)
      rw [pipeRole_quoted, String.ofList_toList] at hrole
      exact forest_leaf hrole
  | void tag =>
    obtain ⟨htext, rfl⟩ : headText tag = text ∧ [] = inner := by
      simpa [nodeRows] using hrows
    simp only [conforms, Bool.and_eq_true, decide_eq_true_iff] at hnode
    obtain ⟨⟨hlevel, htag⟩, hvoid⟩ := hnode
    cases hblock
    rw [← htext] at hline
    have hrole := role_tag hline htag hlevel
    rw [headRole, if_pos hvoid] at hrole
    exact forest_leaf hrole
  | element tag children =>
    obtain ⟨htext, rfl⟩ : headText tag = text ∧ forestRows (depth + 1) children = inner := by
      simpa [nodeRows] using hrows
    simp only [conforms, Bool.and_eq_true, decide_eq_true_iff, Bool.not_eq_true'] at hnode
    obtain ⟨⟨⟨hlevel, htag⟩, hvoid⟩, -⟩ := hnode
    rw [← htext] at hline
    have hrole := role_tag hline htag hlevel
    rw [headRole, if_neg (by simp [hvoid])] at hrole
    have hnested := hchildren tag children rfl block hblock
    rw [← hbelow] at hnested
    rw [forest_parent hrole hnested, hbeyond]

end Nesting

/-- **A level.**  The lines that show the nodes of a level nest into these
nodes again. -/
theorem forest_rows (nodes : List Node) {depth : Nat} {done : List Node} {ls : List Line}
    (h : allConform isPrintableValue (depth + 1) nodes = true)
    (hshow : ShowAll ls (forestRows depth nodes)) :
    forest (depth + 1) done ls = .ok (done.reverse ++ nodes) := by
  match nodes with
  | [] =>
    cases hshow
    rw [forest, List.append_nil]
  | node :: rest =>
    rw [allConform, Bool.and_eq_true] at h
    -- the lines of the first node, and those of the others
    have hfront := List.forall₂_take_append ls (nodeRows depth node) (forestRows depth rest) hshow
    have hback := List.forall₂_drop_append ls (nodeRows depth node) (forestRows depth rest) hshow
    have hchildren : ∀ tag children, node = .element tag children →
        ∀ ls', ShowAll ls' (forestRows (depth + 1) children) →
          forest (depth + 2) [] ls' = .ok children := by
      intro tag children hnode ls' hshow'
      have hprintable := h.1
      rw [hnode] at hprintable
      simp only [conforms, Bool.and_eq_true] at hprintable
      exact forest_rows children hprintable.2 hshow'
    rw [← List.take_append_drop (nodeRows depth node).length ls,
      forest_step h.1 hfront (stops_of_showAll hback (stops_forestRows h.2)) hchildren,
      forest_rows rest h.2 hback]
    simp
termination_by sizeOf nodes

/-! ## §6. The round trip. -/

/-- The lines of a source show its rows. -/
theorem showAll_scan (source : String) : ShowAll (Line.scan source) (rows source.toList) := by
  unfold ShowAll
  rw [← scan_rows, List.forall₂_map_right_iff, List.forall₂_same]
  intro line hline
  exact ⟨rfl, kind_of_mem_scan hline⟩

/-- Something is printed for every forest but the empty one. -/
theorem print_ne_empty {nodes : List Node} (hne : nodes ≠ [])
    (h : allConform isPrintableValue 1 nodes = true) :
    print nodes ≠ "" := by
  intro hempty
  have hrows := rows_print hne h
  obtain ⟨node, rest, rfl⟩ := List.exists_cons_of_ne_nil hne
  rw [allConform, Bool.and_eq_true] at h
  obtain ⟨text, inner, hnode, -⟩ := nodeRows_eq_cons h.1
  have hnone : rows "".toList = [] := by decide
  rw [hempty, hnone, forestRows, hnode] at hrows
  exact List.cons_ne_nil _ _ hrows.symm

/-- **Reading undoes printing.**  A forest that can be printed, and whose
printed page is a source that may be read, is the forest of its printed
page. -/
theorem parse_print (nodes : List Node) (hne : nodes ≠ [])
    (h : allConform isPrintableValue 1 nodes = true)
    (hsize : (print nodes).utf8ByteSize ≤ 10 * 1024 * 1024)
    (hallowed : (print nodes).toList.any isForbidden = false) :
    parse (print nodes) = .ok nodes := by
  have hshow := showAll_scan (print nodes)
  rw [rows_print hne h] at hshow
  rw [parse_eq_ok_iff, check_eq_ok_iff]
  exact ⟨⟨print_ne_empty hne h, hsize, hallowed⟩, forest_rows nodes h hshow⟩

/-- A page with texts that look like tags, quoted texts and padding, with
escapes, with a block, and with void tags among elements. -/
def tricky : List Node :=
  [.doctype "html",
    .element ⟨"div", ["a-b", "_c"], some "x1",
        [⟨"title", .text "say \"\\\" ] = "⟩, ⟨"hidden", .on⟩]⟩
      [.text "  p.note: \"quoted\" ", .void ⟨"br", [], none, []⟩, .text "",
        .text "one\n| two\n\"three\"",
        .element ⟨"p", [], none, [⟨"data-v", .text ""⟩]⟩ [.text "!DOCTYPE x"]],
    .text "|", .void ⟨"img", ["wide"], none, [⟨"src", .text "a.png"⟩]⟩]

theorem parse_print_tricky :
    allConform isPrintableValue 1 tricky = true ∧ (print tricky).utf8ByteSize ≤ 10 * 1024 * 1024
      ∧ (print tricky).toList.any isForbidden = false ∧ parse (print tricky) = .ok tricky := by
  have h : allConform isPrintableValue 1 tricky = true := by decide +kernel
  have hsize : (print tricky).utf8ByteSize ≤ 10 * 1024 * 1024 := by decide +kernel
  have hallowed : (print tricky).toList.any isForbidden = false := by decide +kernel
  exact ⟨h, hsize, hallowed, parse_print tricky (by simp [tricky]) h hsize hallowed⟩

end Offside.Printing
