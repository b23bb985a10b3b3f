/-
  Offside.Proofs.PageShape
  ────────────────────────
  What every page that is read looks like.

  `Shaped` says what a node may be at its nesting depth: how long names are,
  what values and texts hold, and which tags have no inside.  Every node of
  every page that is read is of this shape (`parse_shaped`), and the page can
  be put together again from its parts by the checked constructor of tags,
  which then never refuses.
-/
import Offside.Proofs.WellFormed

namespace Offside.Shape

open Text Head Document

/-! ## §1. Names, values, lines and texts. -/

/-- A name of 1 to 100 letters, digits, underscores and hyphens. -/
structure Name (s : String) : Prop where
  nonempty : 1 ≤ s.length
  short : s.length ≤ 100
  chars : ∀ c ∈ s.toList, c.isAlpha ∨ c.isDigit ∨ c = '_' ∨ c = '-'

/-- A value that an attribute can have on a page: none at all, or a text of
one line that is short or has no gap and no bracket in it. -/
def Value : AttributeValue → Prop
  | .on => True
  | .off => False
  | .text value =>
    '\n' ∉ value.toList
      ∧ (value.length ≤ 10000 ∨ ∀ c ∈ value.toList, c ≠ ' ' ∧ c ≠ '\t' ∧ c ≠ ']')

/-- A line with something on it and no blank at either end. -/
structure TrimmedLine (line : List Char) : Prop where
  nonempty : line ≠ []
  trimmed : trim line = line
  newline : '\n' ∉ line

/-- A text on one line, or two or more trimmed lines joined by newlines. -/
def Content (content : List Char) : Prop :=
  '\n' ∉ content
    ∨ ∃ ls : List (List Char),
        2 ≤ ls.length ∧ (∀ line ∈ ls, TrimmedLine line) ∧ content = unlines ls

/-- A tag with proper names, its own starting with a letter, and proper
values. -/
structure Tagged (tag : Tag) : Prop where
  name : Name tag.name
  letter : ∃ c rest, tag.name.toList = c :: rest ∧ c.isAlpha
  classes : ∀ name ∈ tag.classes, Name name
  id : ∀ name ∈ tag.id, Name name
  attributes : ∀ a ∈ tag.attributes, Name a.name ∧ Value a.value

/-- The names of the tags that close themselves. -/
def selfClosing : List String := ["br", "hr", "img", "input", "meta", "link", "source"]

/-- **The shape of a node** at a nesting depth; the top level has depth
one. -/
def Shaped (depth : Nat) : Node → Prop
  | .doctype name => depth = 1 ∧ TrimmedLine name.toList
  | .text content => Content content.toList
  | .void tag => depth ≤ 128 ∧ Tagged tag ∧ tag.name ∈ selfClosing
  | .element tag _ => depth ≤ 128 ∧ Tagged tag ∧ tag.name ∉ selfClosing

/-! ## §2. All nodes of a page. -/

mutual

/-- A node at a nesting depth and all nodes inside it, with their depths. -/
def placesOf (depth : Nat) : Node → List (Nat × Node)
  | .element tag children => (depth, .element tag children) :: places (depth + 1) children
  | node => [(depth, node)]

/-- The nodes of a forest at a nesting depth and all nodes inside them. -/
def places (depth : Nat) : List Node → List (Nat × Node)
  | [] => []
  | node :: rest => placesOf depth node ++ places depth rest

end

mutual

/-- A node put together from its parts: a tag is asked to be without an inside
exactly if its name says so. -/
def assemble : Node → Except VoidWithChildren Node
  | .element tag children => do
    let inside ← assembleAll children
    Node.ofTag tag (selfClosing.contains tag.name) inside
  | .void tag => Node.ofTag tag (selfClosing.contains tag.name) []
  | .doctype name => .ok (.doctype name)
  | .text content => .ok (.text content)

/-- The nodes of a forest, put together one after the other. -/
def assembleAll : List Node → Except VoidWithChildren (List Node)
  | [] => .ok []
  | node :: rest => do
    let node ← assemble node
    let rest ← assembleAll rest
    return node :: rest

end

/-! ## §3. From the test to the shape. -/

theorem name_of_isIdentifier {s : String} (h : isIdentifier s = true) : Name s := by
  obtain ⟨hchars, hpos, hlen⟩ := isIdentifier_iff.mp h
  rw [String.length_toList] at hpos hlen
  refine ⟨hpos, hlen, ?_⟩
  intro c hc
  have hname := hchars c hc
  unfold isNameChar Char.isAlphanum at hname
  simpa [or_assoc] using hname

theorem value_of_isReadValue {v : AttributeValue} (h : isReadValue v = true) : Value v := by
  cases v with
  | on => exact trivial
  | off => exact absurd h (by simp [isReadValue])
  | text value =>
    simp only [isReadValue, Bool.and_eq_true, Bool.or_eq_true, decide_eq_true_eq,
      String.length_toList, List.all_eq_true] at h
    obtain ⟨hnewline, hshort⟩ := h
    refine ⟨by simpa using hnewline, hshort.imp id ?_⟩
    intro hbare c hc
    have hchar := hbare c hc
    unfold isBareChar isGap at hchar
    simpa [and_assoc] using hchar

theorem trimmedLine_of_isTrimmedLine {line : List Char} (h : isTrimmedLine line = true) :
    TrimmedLine line := by
  obtain ⟨hne, htrim, hnewline⟩ := isTrimmedLine_iff.mp h
  exact ⟨hne, htrim, hnewline⟩

/-- A text with a newline in it has at least two lines. -/
theorem two_le_length_lines {content : List Char} (h : '\n' ∈ content) :
    2 ≤ (lines content).length := by
  have hjoin := unlines_lines content
  match hlines : lines content with
  | [] => exact absurd hlines (lines_ne_nil content)
  | [line] =>
    -- the only line would be the whole text, and a line has no newline in it
    rw [hlines, unlines_singleton] at hjoin
    have hmem : line ∈ lines content := by simp [hlines]
    rw [← hjoin] at h
    exact absurd h (newline_not_mem_of_mem_lines hmem)
  | _ :: _ :: _ => simp

theorem content_of_isTextContent {content : List Char} (h : isTextContent content = true) :
    Content content := by
  by_cases hnewline : '\n' ∈ content
  · right
    have htrimmed := isTextContent_iff.mp h hnewline
    refine ⟨lines content, two_le_length_lines hnewline, ?_, (unlines_lines content).symm⟩
    intro line hline
    exact trimmedLine_of_isTrimmedLine (htrimmed line hline)
  · exact .inl hnewline

theorem tagged_of_tagConforms {tag : Tag} (h : tagConforms isReadValue tag = true) :
    Tagged tag := by
  obtain ⟨hname, ⟨c, hc, hletter⟩, hclasses, hid, hattributes⟩ := tagConforms_iff.mp h
  refine ⟨name_of_isIdentifier hname, ?_, ?_, ?_, ?_⟩
  · obtain ⟨rest, hrest⟩ := List.head?_eq_some_iff.mp hc
    exact ⟨c, rest, hrest, hletter⟩
  · intro name hmem
    exact name_of_isIdentifier (hclasses name hmem)
  · intro name hmem
    exact name_of_isIdentifier (hid name hmem)
  · intro a ha
    obtain ⟨hname, hvalue⟩ := hattributes a ha
    exact ⟨name_of_isIdentifier hname, value_of_isReadValue hvalue⟩

theorem isVoid_iff {tag : Tag} : tag.isVoid = true ↔ tag.name ∈ selfClosing := by
  unfold Tag.isVoid
  exact List.contains_iff_mem

/-- What stands at one place, seen without its inside. -/
theorem shaped_of_conforms {depth : Nat} {node : Node}
    (h : conforms isReadValue depth node = true) : Shaped depth node := by
  cases node with
  | doctype name =>
    simp only [conforms, Bool.and_eq_true, beq_iff_eq] at h
    exact ⟨h.1, trimmedLine_of_isTrimmedLine h.2⟩
  | text content => exact content_of_isTextContent h
  | void tag =>
    simp only [conforms, Bool.and_eq_true, decide_eq_true_eq] at h
    exact ⟨h.1.1, tagged_of_tagConforms h.1.2, isVoid_iff.mp h.2⟩
  | element tag children =>
    simp only [conforms, Bool.and_eq_true, decide_eq_true_eq, Bool.not_eq_true'] at h
    refine ⟨h.1.1.1, tagged_of_tagConforms h.1.1.2, ?_⟩
    intro hmem
    exact absurd (isVoid_iff.mpr hmem) (by simp [h.1.2])

mutual

theorem shaped_of_mem_placesOf {depth : Nat} (node : Node)
    (h : conforms isReadValue depth node = true) :
    ∀ p ∈ placesOf depth node, Shaped p.1 p.2 := by
  intro p hp
  cases node with
  | doctype name =>
    rw [List.mem_singleton.mp hp]
    exact shaped_of_conforms h
  | text content =>
    rw [List.mem_singleton.mp hp]
    exact shaped_of_conforms h
  | void tag =>
    rw [List.mem_singleton.mp hp]
    exact shaped_of_conforms h
  | element tag children =>
    rw [placesOf, List.mem_cons] at hp
    rcases hp with rfl | hp
    · exact shaped_of_conforms h
    · simp only [conforms, Bool.and_eq_true] at h
      exact shaped_of_mem_places children h.2 p hp

/-- The shape at one place holds at all places. -/
theorem shaped_of_mem_places {depth : Nat} (nodes : List Node)
    (h : allConform isReadValue depth nodes = true) :
    ∀ p ∈ places depth nodes, Shaped p.1 p.2 := by
  intro p hp
  cases nodes with
  | nil => exact absurd hp (by simp [places])
  | cons node rest =>
    rw [allConform, Bool.and_eq_true] at h
    rw [places, List.mem_append] at hp
    rcases hp with hp | hp
    · exact shaped_of_mem_placesOf node h.1 p hp
    · exact shaped_of_mem_places rest h.2 p hp

end

/-! ## §4. Putting a page together again. -/

mutual

theorem assemble_of_conforms {depth : Nat} (node : Node)
    (h : conforms isReadValue depth node = true) : assemble node = .ok node := by
  cases node with
  | doctype name => rfl
  | text content => rfl
  | void tag =>
    simp only [conforms, Bool.and_eq_true] at h
    have hvoid : selfClosing.contains tag.name = true := h.2
    rw [assemble, hvoid]
    rfl
  | element tag children =>
    simp only [conforms, Bool.and_eq_true, Bool.not_eq_true'] at h
    have hvoid : selfClosing.contains tag.name = false := h.1.2
    rw [assemble, assembleAll_of_allConform children h.2, hvoid]
    rfl

/-- The nodes of a page are what the checked constructor makes of their
parts. -/
theorem assembleAll_of_allConform {depth : Nat} (nodes : List Node)
    (h : allConform isReadValue depth nodes = true) : assembleAll nodes = .ok nodes := by
  cases nodes with
  | nil => rfl
  | cons node rest =>
    rw [allConform, Bool.and_eq_true] at h
    rw [assembleAll, assemble_of_conforms node h.1, assembleAll_of_allConform rest h.2]
    rfl

end

/-! ## §5. Pages. -/

/-- **Every page that is read is well formed**: each node has the shape of its
place, and no tag is refused when the page is put together from its parts. -/
theorem parse_shaped (source : String) (nodes : List Node) (h : parse source = .ok nodes) :
    (∀ p ∈ places 1 nodes, Shaped p.1 p.2) ∧ assembleAll nodes = .ok nodes := by
  have hconforms := conforms_of_parse h
  exact ⟨shaped_of_mem_places nodes hconforms, assembleAll_of_allConform nodes hconforms⟩

/-- A page with a padded document type, all kinds of values, a block, and a
void tag with a deeper line below it. -/
def mixed : List Node :=
  [.doctype "html",
    .element ⟨"div", ["a_b"], some "x-1",
        [⟨"v", .text "1"⟩, ⟨"w", .text "p ] q"⟩, ⟨"z", .on⟩]⟩
      [.text "one\n| two", .void ⟨"br", [], none, []⟩,
        .element ⟨"p", [], none, []⟩ [.text "t"]]]

/-- The source of that page. -/
def mixedSource : String :=
  "!DOCTYPE   html\ndiv.a_b#x-1[v=1 w='p ] q' z]:\n  |\n    one\n     | two\n  br\n    p: t"

theorem parse_shaped_mixed :
    parse mixedSource = .ok mixed ∧ Shaped 1 (.doctype "html") ∧ Shaped 2 (.text "one\n| two")
      ∧ Shaped 2 (.void ⟨"br", [], none, []⟩) ∧ Shaped 3 (.text "t")
      ∧ assembleAll mixed = .ok mixed := by
  have hparse : parse mixedSource = .ok mixed := by
    rw [parse_eq_ok_iff, check_eq_ok_iff]
    exact ⟨⟨by decide, by decide, by rfl⟩, by decide +kernel⟩
  obtain ⟨hshaped, hassemble⟩ := parse_shaped mixedSource mixed hparse
  refine ⟨hparse, hshaped (1, _) ?_, hshaped (2, _) ?_, hshaped (2, _) ?_, hshaped (3, _) ?_,
    hassemble⟩ <;> simp [mixed, places, placesOf]

end Offside.Shape
