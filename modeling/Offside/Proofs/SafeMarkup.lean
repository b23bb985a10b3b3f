/-
  Offside.Proofs.SafeMarkup
  ─────────────────────────
  **NO TEXT BECOMES MARKUP.**

  Whatever texts and values a page holds, its markup reads back as the tags of
  the page, in order and nested, with the texts of the page between them.

    · `written_nodes`   markup is items that are written, but for blanks,
    · `written_tidy`    and still is after it has been tidied,
    · `isNested_forest` and the marks among these items are nested.

  The blanks that layout adds, and those that it takes away, are all that
  `Written` leaves open.
-/
import Offside.Generator
import Offside.Proofs.MarkupReader
import Offside.Proofs.Tidy
import Offside.Proofs.WellFormed

namespace Offside.Markup

open Text Head Document

/-! ## §1. The items of a forest. -/

/-- Class names as they stand in a tag. -/
def classText (names : List String) : List Char := [' '].intercalate (names.map String.toList)

/-- The classes of a tag, its id, and its attributes, all as attributes. -/
def shown (tag : Tag) : List Attribute :=
  (if tag.classes.isEmpty then []
    else [⟨"class", .text (String.ofList (classText tag.classes))⟩])
    ++ ((tag.id.toList.map fun id => ⟨"id", .text id⟩) ++ tag.attributes)

mutual

/-- The marks and the characters of a node, from the top down. -/
def nodeItems : Node → List Item
  | .doctype name => [.mark (.doctype name)]
  | .text content => content.toList.map .char
  | .void tag => [.mark (.void tag.name (shown tag))]
  | .element tag children =>
    .mark (.opening tag.name (shown tag)) :: (forestItems children ++ [.mark (.closing tag.name)])

/-- The marks and the characters of a forest. -/
def forestItems : List Node → List Item
  | [] => []
  | node :: rest => nodeItems node ++ forestItems rest

end

mutual

/-- A node and all nodes inside it. -/
def nodesOf : Node → List Node
  | .element tag children => .element tag children :: allNodes children
  | node => [node]

/-- The nodes of a forest, at all depths. -/
def allNodes : List Node → List Node
  | [] => []
  | node :: rest => nodesOf node ++ allNodes rest

end

/-- The tag of a node, if it has one. -/
def tag? : Node → Option Tag
  | .void tag => some tag
  | .element tag _ => some tag
  | _ => none

/-- A node that may be written: text inside it is escaped, and a document type
has no brackets in it. -/
def Tame : Node → Prop
  | .doctype name => '<' ∉ name.toList ∧ '>' ∉ name.toList
  | node => ∀ tag ∈ tag? node, isRaw tag.name = false

/-- **What a page says**: the text before its first mark, and every mark with
the text behind it, all without blanks. -/
def contents (forest : List Node) : List Char × List (Mark × List Char) :=
  gather (strip (forestItems forest))

/-! ## §2. Written items. -/

/-- A text that is items as they are written, but for blanks. -/
def Written (cs : List Char) (items : List Item) : Prop :=
  ∃ its, cs = write its ∧ strip its = strip items ∧ AllProper its

section Writing

variable {cs ds : List Char} {items more : List Item}

/-- Proper items in a row are proper. -/
theorem allProper_append {a b : List Item} (ha : AllProper a) (hb : AllProper b) :
    AllProper (a ++ b) := by
  intro m hm
  rcases List.mem_append.mp hm with hm | hm
  · exact ha m hm
  · exact hb m hm

/-- Characters are proper items. -/
theorem allProper_char (cs : List Char) : AllProper (cs.map .char) := by
  intro m hm
  obtain ⟨c, -, hc⟩ := List.mem_map.mp hm
  exact absurd hc (by simp)

/-- What is written in a row stands for items in a row. -/
theorem Written.append (h : Written cs items) (h' : Written ds more) :
    Written (cs ++ ds) (items ++ more) := by
  obtain ⟨a, rfl, ha, hpa⟩ := h
  obtain ⟨b, rfl, hb, hpb⟩ := h'
  refine ⟨a ++ b, (write_append a b).symm, ?_, allProper_append hpa hpb⟩
  rw [strip_append, strip_append, ha, hb]

/-- Blanks among the items do not matter. -/
theorem Written.congr (h : Written cs items) (heq : strip items = strip more) :
    Written cs more := by
  obtain ⟨its, hcs, hits, hproper⟩ := h
  exact ⟨its, hcs, hits.trans heq, hproper⟩

theorem squeeze_append (a b : List Char) : squeeze (a ++ b) = squeeze a ++ squeeze b :=
  List.filter_append a b

/-- Nothing is left of blanks. -/
theorem squeeze_of_blank (h : ∀ c ∈ cs, isBlank c = true) : squeeze cs = [] := by
  unfold squeeze
  rw [List.filter_eq_nil_iff]
  intro c hc
  simp [h c hc]

/-- Escaped text shows the characters that it was made from. -/
theorem written_escape (h : squeeze cs = squeeze ds) : Written (escape cs) (ds.map .char) := by
  refine ⟨cs.map .char, (write_char cs).symm, ?_, allProper_char cs⟩
  rw [strip_char, strip_char, h]

/-- A text without special characters is its own escape. -/
theorem escape_eq_self (h : ∀ c ∈ cs, escapeChar c = [c]) : escape cs = cs := by
  unfold escape
  rw [List.flatMap_congr h]
  simp

/-- Blanks show nothing. -/
theorem written_blank (h : ∀ c ∈ cs, isBlank c = true) : Written cs [] := by
  have hescape : escape cs = cs := escape_eq_self fun c hc => escapeChar_of_isBlank (h c hc)
  rw [← hescape]
  exact @written_escape cs [] (squeeze_of_blank h)

/-- Layout around what is written changes nothing. -/
theorem Written.behind_blank (h : Written cs items) (hds : ∀ c ∈ ds, isBlank c = true) :
    Written (ds ++ cs) items := by
  simpa using (written_blank hds).append h

/-- Blanks behind a text stand for nothing. -/
theorem Written.before_blank (h : Written cs items) (hds : ∀ c ∈ ds, isBlank c = true) :
    Written (cs ++ ds) items := by
  simpa using h.append (written_blank hds)

/-- A proper tag, written out, stands for itself. -/
theorem written_mark {m : Mark} (h : Proper m) : Written ('<' :: (body m ++ ['>'])) [.mark m] := by
  refine ⟨[.mark m], ?_, rfl, ?_⟩
  · simp [write, writeItem]
  · intro m' hm
    rw [List.mem_singleton, Item.mark.injEq] at hm
    rw [hm]
    exact h

end Writing

/-! ## §3. Texts. -/

section Texts

variable {parent : String} {o : Options}

/-- Texts are escaped wherever they are not raw. -/
theorem emit_eq_escape (h : isRaw parent = false) (cs : List Char) : emit parent cs = escape cs := by
  unfold emit
  rw [if_neg (by simp [h])]

/-- Trimming takes only blanks away. -/
theorem squeeze_trim (cs : List Char) : squeeze (trim cs) = squeeze cs := by
  have hright : ∀ ds, squeeze (trimRight ds) = squeeze ds := by
    intro ds
    obtain ⟨b, hb, hsplit⟩ := exists_blank_trimRight ds
    conv_rhs => rw [hsplit, squeeze_append, squeeze_of_blank hb, List.append_nil]
  have hleft : squeeze (trimLeft cs) = squeeze cs := by
    conv_rhs => rw [← List.takeWhile_append_dropWhile (p := isBlank) (l := cs)]
    rw [squeeze_append, squeeze_of_blank fun c hc => List.mem_takeWhile_imp hc]
    rfl
  unfold trim
  rw [hright, hleft]

/-- Joining texts by a blank shows in no way. -/
theorem squeeze_intercalate {sep : List Char} (hsep : ∀ c ∈ sep, isBlank c = true)
    (ls : List (List Char)) : squeeze (sep.intercalate ls) = squeeze ls.flatten := by
  rw [map_intercalate rfl squeeze_append, squeeze_of_blank hsep, nil_intercalate]
  exact List.filter_flatten.symm

/-- Cutting a text into lines takes only newlines away. -/
theorem squeeze_flatten_lines (cs : List Char) : squeeze (lines cs).flatten = squeeze cs := by
  conv_rhs => rw [← unlines_lines cs]
  refine (squeeze_intercalate (fun c hc => ?_) _).symm
  rw [List.mem_singleton.mp hc]
  exact isBlank_newline

/-- Trimming lines takes only blanks away. -/
theorem squeeze_flatten_trim (ls : List (List Char)) :
    squeeze (ls.map trim).flatten = squeeze ls.flatten := by
  induction ls with
  | nil => rfl
  | cons l ls ih =>
    rw [List.map_cons, List.flatten_cons, List.flatten_cons, squeeze_append, squeeze_append,
      squeeze_trim, ih]

/-- Indentation is blank. -/
theorem indentation_blank (o : Options) (depth : Nat) :
    ∀ c ∈ indentation o depth, isBlank c = true := by
  intro c hc
  unfold indentation at hc
  split at hc
  · simp at hc
  · split at hc
    · rw [List.eq_of_mem_replicate hc]
      decide
    · rw [List.eq_of_mem_replicate hc]
      exact isBlank_space

/-- What is put between lines is blank. -/
theorem newline_blank (o : Options) : ∀ c ∈ newline o, isBlank c = true := by
  intro c hc
  unfold newline at hc
  split at hc
  · simp at hc
  · rw [List.mem_singleton.mp hc]
    exact isBlank_newline

/-- A blank line of a block leaves nothing behind. -/
theorem block_cons_blank {pad piece : List Char} {rest : List (List Char)} (h : trim piece = []) :
    block parent pad (piece :: rest) = block parent pad rest := by
  rw [block, h]
  rfl

/-- Any other line is written, with a newline if a line follows, blank or not. -/
theorem block_cons_inked {pad piece : List Char} {rest : List (List Char)} (h : trim piece ≠ []) :
    block parent pad (piece :: rest)
      = pad ++ emit parent (trim piece) ++ (if rest.isEmpty then [] else ['\n'])
        ++ block parent pad rest := by
  have hempty : (trim piece).isEmpty = false := by simpa using h
  rw [block, hempty]
  rfl

/-- A text on lines of its own stands for its characters. -/
theorem written_block (hraw : isRaw parent = false) {pad : List Char}
    (hpad : ∀ c ∈ pad, isBlank c = true) (pieces : List (List Char)) :
    Written (block parent pad pieces) (pieces.flatten.map .char) := by
  induction pieces with
  | nil =>
    show Written [] []
    exact written_blank (by simp)
  | cons piece rest ih =>
    rw [List.flatten_cons, List.map_append]
    by_cases hblank : trim piece = []
    · have hnothing : Written [] (piece.map .char) := by
        refine @written_escape [] piece ?_
        rw [← squeeze_trim piece, hblank]
      rw [block_cons_blank hblank]
      exact hnothing.append ih
    · rw [block_cons_inked hblank, emit_eq_escape hraw]
      have hpiece := (written_escape (squeeze_trim piece)).behind_blank hpad
      refine (hpiece.before_blank ?_).append ih
      intro c hc
      split at hc
      · simp at hc
      · rw [List.mem_singleton.mp hc]
        exact isBlank_newline

/-- **A text shows its characters**, with whatever layout. -/
theorem written_text (hraw : isRaw parent = false) (depth : Nat) (content : String) :
    Written (text o depth parent content) (content.toList.map .char) := by
  unfold text
  simp only
  split
  next =>
    -- minified: the lines that are not blank, joined by spaces
    rw [hraw, emit_eq_escape hraw]
    apply written_escape
    rw [squeeze_intercalate (by simp [isBlank_space])]
    have hwords : (((lines content.toList).map trim).filter fun l => !l.isEmpty).flatten
        = ((lines content.toList).map trim).flatten := List.flatten_filter_not_isEmpty
    rw [hwords, squeeze_flatten_trim, squeeze_flatten_lines]
  next =>
    split
    next piece hpiece =>
      rw [emit_eq_escape hraw]
      refine Written.behind_blank (written_escape ?_) (indentation_blank o depth)
      rw [squeeze_trim, ← squeeze_flatten_lines content.toList, hpiece]
      simp
    next =>
      refine (written_block hraw (indentation_blank o depth) _).congr ?_
      rw [strip_char, strip_char, squeeze_flatten_lines]

end Texts

/-! ## §4. Tags. -/

section Tags

variable {tag : Tag}

/-- Characters of a name are not escaped. -/
theorem escapeChar_of_isNameChar {c : Char} (h : isNameChar c = true) : escapeChar c = [c] :=
  escapeChar_of_class (by simp; decide) h

/-- A name is its own escape. -/
theorem escape_name {name : String} (h : isIdentifier name = true) :
    escape name.toList = name.toList :=
  escape_eq_self fun c hc => escapeChar_of_isNameChar ((isIdentifier_iff.mp h).1 c hc)

/-- What class names are made of, once they stand in a tag. -/
theorem mem_classText {names : List String} (h : ∀ name ∈ names, isIdentifier name = true)
    {c : Char} (hc : c ∈ classText names) : c = ' ' ∨ isNameChar c = true := by
  cases names with
  | nil => simp [classText] at hc
  | cons name names =>
    have hname : ∀ n ∈ name :: names, ∀ d ∈ n.toList, isNameChar d = true := fun n hn =>
      (isIdentifier_iff.mp (h n hn)).1
    unfold classText at hc
    rw [List.map_cons, intercalate_cons, List.mem_append, List.mem_flatMap] at hc
    rcases hc with hc | ⟨cs, hcs, hc⟩
    · exact .inr (hname name List.mem_cons_self c hc)
    · obtain ⟨n, hn, rfl⟩ := List.mem_map.mp hcs
      rcases List.mem_append.mp hc with hc | hc
      · exact .inl (List.mem_singleton.mp hc)
      · exact .inr (hname n (List.mem_cons_of_mem _ hn) c hc)

/-- Class names are found again by cutting at the spaces. -/
theorem splitOn_classText {names : List String} (hne : names ≠ [])
    (h : ∀ name ∈ names, isIdentifier name = true) :
    (classText names).splitOn ' ' = names.map String.toList := by
  refine List.splitOn_intercalate ' ' (fun cs hcs hmem => ?_) (by simpa using hne)
  obtain ⟨name, hname, rfl⟩ := List.mem_map.mp hcs
  exact absurd ((isIdentifier_iff.mp (h name hname)).1 ' ' hmem) (by decide)

/-- What a tag says in its brackets is what it shows. -/
theorem filterMap_shown (h : tagConforms isReadValue tag = true) :
    (shown tag).filterMap attribute? = entries tag := by
  obtain ⟨-, -, hclasses, hid, -⟩ := tagConforms_iff.mp h
  have hclassText : escape (classText tag.classes) = classText tag.classes := by
    apply escape_eq_self
    intro c hc
    rcases mem_classText hclasses hc with rfl | hc
    · exact escapeChar_of_isBlank isBlank_space
    · exact escapeChar_of_isNameChar hc
  unfold shown entries
  rw [List.filterMap_append, List.filterMap_append, ← List.append_assoc]
  congr 1
  congr 1
  -- names are written as they are, so the classes and the id need no escaping
  · split
    · rfl
    · simp [attribute?, hclassText]
      rfl
  · cases htag : tag.id with
    | none => rfl
    | some id =>
      have hidentifier := hid id htag
      have hne : id.isEmpty = false := by
        have hlist := toList_ne_nil_of_isIdentifier hidentifier
        simpa using hlist
      simp [attribute?, escape_name hidentifier, hne]

/-- What stands between the brackets of an opening tag. -/
theorem body_opening (h : tagConforms isReadValue tag = true) :
    body (.opening tag.name (shown tag)) = inside tag := by
  show tag.name.toList ++ ((shown tag).filterMap attribute?).flatMap (fun e => ' ' :: e) = _
  rw [filterMap_shown h]
  rfl

/-- An opening tag is its body between brackets. -/
theorem opening_eq (h : tagConforms isReadValue tag = true) :
    opening tag = '<' :: (body (.opening tag.name (shown tag)) ++ ['>']) := by
  rw [body_opening h]
  rfl

/-- A void tag is its body between brackets. -/
theorem voidTag_eq (h : tagConforms isReadValue tag = true) :
    voidTag tag = '<' :: (body (.void tag.name (shown tag)) ++ ['>']) := by
  have hinside : tag.name.toList ++ entriesText (shown tag) = inside tag := body_opening h
  show voidTag tag = '<' :: (tag.name.toList ++ (entriesText (shown tag) ++ [' ', '/']) ++ ['>'])
  rw [← List.append_assoc, hinside]
  simp [voidTag]

theorem closing_eq (tag : Tag) :
    closing tag = '<' :: (body (.closing tag.name) ++ ['>']) := rfl

/-- An attribute that was read can be read back. -/
theorem properEntry_of_isReadValue {a : Attribute} (hname : isIdentifier a.name = true)
    (hvalue : isReadValue a.value = true) : ProperEntry a := by
  refine ⟨hname, ?_, ?_⟩
  · intro hoff
    rw [hoff] at hvalue
    exact absurd hvalue (by simp [isReadValue])
  · intro v hv
    rw [hv] at hvalue
    simp only [isReadValue, Bool.and_eq_true, Bool.not_eq_true', List.contains_eq_mem,
      decide_eq_false_iff_not] at hvalue
    exact hvalue.1

/-- A tag that conforms shows nothing that cannot be written. -/
theorem properEntry_shown (h : tagConforms isReadValue tag = true) :
    ∀ a ∈ shown tag, ProperEntry a := by
  obtain ⟨-, -, hclasses, hid, hattributes⟩ := tagConforms_iff.mp h
  unfold shown
  rw [List.forall_mem_append, List.forall_mem_append]
  refine ⟨?_, ?_, ?_⟩
  · intro a ha
    split at ha
    · simp at ha
    · rw [List.mem_singleton.mp ha]
      refine ⟨(by decide : isIdentifier "class" = true), by simp, fun v hv => ?_⟩
      rw [AttributeValue.text.injEq] at hv
      rw [← hv, String.toList_ofList]
      intro hmem
      rcases mem_classText hclasses hmem with hc | hc
      · exact absurd hc (by decide)
      · exact absurd hc (by decide)
  · intro a ha
    obtain ⟨id, hmem, rfl⟩ := List.mem_map.mp ha
    have hidentifier := hid id (Option.mem_toList.mp hmem)
    refine ⟨(by decide : isIdentifier "id" = true), by simp, fun v hv => ?_⟩
    rw [AttributeValue.text.injEq] at hv
    rw [← hv]
    exact breaks_not_mem_name (.inr (.inr rfl)) hidentifier
  · intro a ha
    exact properEntry_of_isReadValue (hattributes a ha).1 (hattributes a ha).2

/-- An opening tag stands for itself. -/
theorem written_opening (h : tagConforms isReadValue tag = true) :
    Written (opening tag) [.mark (.opening tag.name (shown tag))] := by
  rw [opening_eq h]
  exact written_mark ⟨(tagConforms_iff.mp h).1, properEntry_shown h⟩

/-- A void tag stands for itself. -/
theorem written_voidTag (h : tagConforms isReadValue tag = true) :
    Written (voidTag tag) [.mark (.void tag.name (shown tag))] := by
  rw [voidTag_eq h]
  exact written_mark ⟨(tagConforms_iff.mp h).1, properEntry_shown h⟩

/-- A closing tag stands for itself. -/
theorem written_closing (h : tagConforms isReadValue tag = true) :
    Written (closing tag) [.mark (.closing tag.name)] := by
  rw [closing_eq]
  exact written_mark (tagConforms_iff.mp h).1

end Tags

/-! ## §5. Nodes. -/

/-- A text on the line of its tag shows its characters. -/
theorem written_inlineText {tag : Tag} {children : List Node} {cs : List Char}
    (hraw : isRaw tag.name = false) (h : inlineText? tag children = some cs) :
    Written cs (forestItems children) := by
  unfold inlineText? at h
  split at h
  next content =>
    rw [hraw] at h
    simp only [Bool.false_eq_true, if_false] at h
    split at h
    next =>
      injection h with h
      rw [← h]
      have hitems : forestItems [.text content] = content.toList.map .char := by
        simp [forestItems, nodeItems]
      rw [hitems]
      exact written_escape rfl
    next => exact absurd h (by simp)
  next => exact absurd h (by simp)

mutual

/-- **Markup is written items**, one case per kind of node. -/
theorem written_node (o : Options) (depth level : Nat) {parent : String}
    (hparent : isRaw parent = false) (n : Node) (hconforms : conforms isReadValue level n = true)
    (htame : ∀ m ∈ nodesOf n, Tame m) : Written (node o depth parent n) (nodeItems n) := by
  cases n with
  | doctype name =>
    simp only [conforms, Bool.and_eq_true] at hconforms
    have hname : '<' ∉ name.toList ∧ '>' ∉ name.toList :=
      htame (.doctype name) (by simp [nodesOf])
    have hproper : Proper (.doctype name) :=
      ⟨hname.1, hname.2, (isTrimmedLine_iff.mp hconforms.2).2.2⟩
    exact written_mark hproper
  | text content => exact written_text hparent depth content
  | void tag =>
    simp only [conforms, Bool.and_eq_true] at hconforms
    exact (written_voidTag hconforms.1.2).behind_blank (indentation_blank o depth)
  | element tag children =>
    simp only [conforms, Bool.and_eq_true] at hconforms
    obtain ⟨⟨⟨-, htag⟩, -⟩, hchildren⟩ := hconforms
    have hraw : isRaw tag.name = false := htame (.element tag children) (by simp [nodesOf]) tag rfl
    have hopening := (written_opening htag).behind_blank (indentation_blank o depth)
    have hclosing := written_closing htag
    -- the three shapes of an element: empty, with its text on one line, and as a block
    rw [node]
    split
    next hempty =>
      rw [List.isEmpty_iff] at hempty
      rw [hempty]
      exact hopening.append hclosing
    next =>
      split
      next cs hcs => exact (hopening.append (written_inlineText hraw hcs)).append hclosing
      next =>
        have hinner := written_nodes o (depth + 1) (level + 1) hraw children hchildren
          fun m hm => htame m (by simp [nodesOf, hm])
        have hall := ((hopening.before_blank (newline_blank o)).append hinner).append
          (hclosing.behind_blank (indentation_blank o depth))
        simpa [nodeItems] using hall

/-- **Nodes in a row** are written as the items they stand for. -/
theorem written_nodes (o : Options) (depth level : Nat) {parent : String}
    (hparent : isRaw parent = false) (ns : List Node)
    (hconforms : allConform isReadValue level ns = true)
    (htame : ∀ m ∈ allNodes ns, Tame m) : Written (nodes o depth parent ns) (forestItems ns) := by
  cases ns with
  | nil => exact written_blank (by simp [nodes])
  | cons n ns =>
    rw [allConform, Bool.and_eq_true] at hconforms
    have hnode := written_node o depth level hparent n hconforms.1
      fun m hm => htame m (by simp [allNodes, hm])
    have hrest := written_nodes o depth level hparent ns hconforms.2
      fun m hm => htame m (by simp [allNodes, hm])
    rw [nodes, forestItems]
    exact (hnode.before_blank (newline_blank o)).append hrest

end

/-! ## §6. Tidying. -/

section Tidying

variable {items : List Item}

/-- Some of the items that are proper are proper. -/
theorem AllProper.sublist {its : List Item} (h : AllProper items) (hsub : its.Sublist items) :
    AllProper its :=
  fun m hm => h m (hsub.subset hm)

/-- A newline is written for a newline only. -/
theorem newline_not_mem_writeItem {item : Item} (h : ∀ m, item = .mark m → Proper m)
    (hitem : item ≠ .char '\n') : '\n' ∉ writeItem item := by
  cases item with
  | mark m =>
    have hbody := breaks_not_mem_body (.inr (.inr rfl)) (h m rfl)
    simp [writeItem, hbody]
  | char c =>
    have hc : '\n' ∉ [c] := by simpa using Ne.symm fun h => hitem (congrArg Item.char h)
    have hescape := newline_not_mem_escape hc
    simpa [escape, writeItem] using hescape

/-- No mark is cut at the end of a line. -/
theorem exists_lines_write (h : AllProper items) :
    ∃ iss : List (List Item), lines (write items) = iss.map write
      ∧ strip iss.flatten = strip items ∧ ∀ its ∈ iss, AllProper its := by
  induction items with
  | nil => exact ⟨[[]], rfl, rfl, by simp [AllProper]⟩
  | cons item items ih =>
    obtain ⟨iss, hlines, hstrip, hproper⟩ := ih fun m hm => h m (List.mem_cons_of_mem _ hm)
    -- a newline among the items starts a line; any other item joins the first one
    by_cases hitem : item = .char '\n'
    · refine ⟨[] :: iss, ?_, ?_, ?_⟩
      · rw [hitem]
        show lines ('\n' :: write items) = _
        rw [lines_newline_cons, hlines]
        rfl
      · rw [hitem, List.flatten_cons, List.nil_append, hstrip]
        rfl
      · rw [List.forall_mem_cons]
        exact ⟨by simp [AllProper], hproper⟩
    · obtain ⟨line, rest, hcons⟩ := exists_lines_eq (write items)
      rw [hcons] at hlines
      cases iss with
      | nil => exact absurd hlines (by simp)
      | cons its iss =>
        rw [List.map_cons, List.cons.injEq] at hlines
        have hmark : ∀ m, item = .mark m → Proper m := fun m hm => h m (by simp [hm])
        rw [List.forall_mem_cons] at hproper
        refine ⟨(item :: its) :: iss, ?_, ?_, ?_⟩
        · rw [write_cons,
            lines_append_of_not_mem (newline_not_mem_writeItem hmark hitem) hcons, hlines.1,
            hlines.2, List.map_cons, write_cons]
        · have hassoc : ((item :: its) :: iss).flatten = [item] ++ (its :: iss).flatten := by simp
          rw [hassoc, strip_append, hstrip, ← strip_append]
          rfl
        · rw [List.forall_mem_cons]
          refine ⟨fun m hm => ?_, hproper.2⟩
          rcases List.mem_cons.mp hm with hm | hm
          · exact hmark m hm.symm
          · exact hproper.1 m hm

/-- Items without the blanks at their end. -/
def trimItems (items : List Item) : List Item := items.rdropWhile fun item => !isInk item

/-- Trimming items takes only blanks away. -/
theorem strip_trimItems (items : List Item) : strip (trimItems items) = strip items := by
  conv_rhs => rw [← List.rdropWhile_append_rtakeWhile (p := fun item => !isInk item) (l := items)]
  rw [strip_append]
  have hnone : strip (items.rtakeWhile fun item => !isInk item) = [] := by
    unfold strip
    rw [List.filter_eq_nil_iff]
    intro item hitem
    simpa using List.mem_rtakeWhile_imp hitem
  rw [hnone, List.append_nil]
  rfl

/-- What is written of ink ends in no blank. -/
theorem stops_reverse_writeItem {item : Item} (h : isInk item = true) :
    Stops isBlank (writeItem item).reverse := by
  cases item with
  | mark m =>
    show Stops isBlank ('<' :: (body m ++ ['>'])).reverse
    rw [← List.cons_append, List.reverse_append]
    exact stops_cons.mpr (by decide)
  | char c =>
    have hc : isBlank c = false := by simpa [isInk] using h
    intro d hd
    exact isBlank_of_mem_escapeChar hc (List.mem_reverse.mp (List.mem_of_mem_head? hd))

/-- Every item is written as something. -/
theorem writeItem_ne_nil (item : Item) : writeItem item ≠ [] := by
  cases item with
  | mark m => simp [writeItem]
  | char c =>
    show escapeChar c ≠ []
    rcases escapeChar_cases c with ⟨-, he⟩ | ⟨-, he⟩ | ⟨-, he⟩ | ⟨-, he⟩ | ⟨-, he⟩ <;>
      simp [he]

/-- Trimming a text trims the items it was written from. -/
theorem trimRight_write (items : List Item) : trimRight (write items) = write (trimItems items) := by
  induction items using List.reverseRecOn with
  | nil => rfl
  | append_singleton items item ih =>
    have hlast : write (items ++ [item]) = write items ++ writeItem item := by
      rw [write_append]
      simp [write]
    unfold trimItems at ih ⊢
    -- from the end: the last item is ink and stays, or a blank and goes
    cases hink : isInk item with
    | true =>
      rw [List.rdropWhile_concat_neg _ _ _ (by simp [hink]), hlast]
      apply trimRight_of_stops
      rw [List.reverse_append]
      cases hrev : (writeItem item).reverse with
      | nil => exact absurd (List.reverse_eq_nil_iff.mp hrev) (writeItem_ne_nil item)
      | cons c cs =>
        have hstop := stops_reverse_writeItem hink
        rw [hrev, stops_cons] at hstop
        exact stops_cons.mpr hstop
    | false =>
      rw [List.rdropWhile_concat_pos _ _ _ (by simp [hink]), hlast, ← ih]
      apply trimRight_append_blank
      cases item with
      | mark m => exact absurd hink (by simp [isInk])
      | char c =>
        have hblank : isBlank c = true := by simpa [isInk] using hink
        show ∀ d ∈ escapeChar c, isBlank d = true
        rw [escapeChar_of_isBlank hblank]
        simpa using hblank

/-- Nothing is written only for no items. -/
theorem isEmpty_write (items : List Item) : (write items).isEmpty = items.isEmpty := by
  cases items with
  | nil => rfl
  | cons item items =>
    rw [write_cons]
    simp [writeItem_ne_nil item]

/-- Lines of items of which empty ones were dropped hold the same items. -/
theorem exists_dropped_lines (kss : List (List Item)) {ls : List (List Char)}
    (hsub : ls.Sublist (kss.map write))
    (hfilter : ls.filter (!·.isEmpty) = (kss.map write).filter (!·.isEmpty)) :
    ∃ jss : List (List Item),
      ls = jss.map write ∧ jss.Sublist kss ∧ jss.flatten = kss.flatten := by
  obtain ⟨jss, hjss, rfl⟩ := List.sublist_map_iff.mp hsub
  have hcomp : (fun l : List Char => !l.isEmpty) ∘ write = fun its : List Item => !its.isEmpty :=
    funext fun its => by simp [isEmpty_write]
  have hkept : (jss.filter (!·.isEmpty)).length = (kss.filter (!·.isEmpty)).length := by
    rw [List.filter_map, List.filter_map, hcomp] at hfilter
    simpa using congrArg List.length hfilter
  -- a sublist that keeps as many lines that are not empty keeps them all
  have heq : jss.filter (!·.isEmpty) = kss.filter (!·.isEmpty) :=
    (hjss.filter _).eq_of_length hkept
  refine ⟨jss, rfl, hjss, ?_⟩
  rw [← List.flatten_filter_not_isEmpty, heq, List.flatten_filter_not_isEmpty]

/-- Items of several lines, one below the other. -/
def unlinesItems (iss : List (List Item)) : List Item := [Item.char '\n'].intercalate iss

/-- Lines of items are written as lines. -/
theorem write_unlinesItems (iss : List (List Item)) :
    write (unlinesItems iss) = unlines (iss.map write) := by
  exact map_intercalate rfl write_append [.char '\n'] iss

/-- Between lines of items there are only blanks. -/
theorem strip_unlinesItems (iss : List (List Item)) :
    strip (unlinesItems iss) = strip iss.flatten := by
  have hnewline : strip [.char '\n'] = [] := by decide
  unfold unlinesItems
  rw [map_intercalate rfl strip_append, hnewline, nil_intercalate]
  exact List.filter_flatten.symm

/-- Lines of proper items are proper. -/
theorem allProper_unlinesItems {iss : List (List Item)} (h : ∀ its ∈ iss, AllProper its) :
    AllProper (unlinesItems iss) := by
  cases iss with
  | nil =>
    intro m hm
    exact absurd hm (by simp [unlinesItems])
  | cons its iss =>
    unfold unlinesItems
    rw [intercalate_cons]
    refine allProper_append (h its List.mem_cons_self) fun m hm => ?_
    obtain ⟨jts, hjts, hm⟩ := List.mem_flatMap.mp hm
    rcases List.mem_append.mp hm with hm | hm
    · exact absurd (List.mem_singleton.mp hm) (by simp)
    · exact h jts (List.mem_cons_of_mem _ hjts) m hm

/-- **Tidying touches blanks only.** -/
theorem written_tidy {cs : List Char} (h : Written cs items) : Written (tidy cs) items := by
  obtain ⟨its, rfl, hstrip, hproper⟩ := h
  -- the items line by line, then without the blanks at the ends of lines, then
  -- without the empty lines that are dropped
  obtain ⟨iss, hlines, hitems, hiss⟩ := exists_lines_write hproper
  have htrim : (lines (write its)).map trimRight = (iss.map trimItems).map write := by
    rw [hlines, List.map_map, List.map_map]
    exact List.map_congr_left fun its _ => trimRight_write its
  obtain ⟨hsub, hfilter⟩ := squash_dropEnds ((lines (write its)).map trimRight)
  rw [htrim] at hsub hfilter
  obtain ⟨jss, hjss, hjsub, hflatten⟩ := exists_dropped_lines (iss.map trimItems) hsub hfilter
  have htrimmed : strip (iss.map trimItems).flatten = strip iss.flatten := by
    unfold strip
    rw [List.filter_flatten, List.filter_flatten, List.map_map]
    exact congrArg List.flatten (List.map_congr_left fun its _ => strip_trimItems its)
  refine ⟨unlinesItems jss, ?_, ?_, ?_⟩
  · rw [tidy_eq_unlines, tidyLines, htrim, hjss, write_unlinesItems]
  · rw [strip_unlinesItems, hflatten, htrimmed, hitems, hstrip]
  · refine allProper_unlinesItems fun its hits => ?_
    obtain ⟨is, his, rfl⟩ := List.mem_map.mp (hjsub.subset hits)
    exact (hiss is his).sublist (List.rdropWhile_prefix _ _).sublist

end Tidying

/-! ## §7. Nesting. -/

/-- The marks among items. -/
def marks : List Item → List Mark :=
  List.filterMap fun
    | .mark m => some m
    | .char _ => none

theorem marks_append (a b : List Item) : marks (a ++ b) = marks a ++ marks b :=
  List.filterMap_append

theorem marks_char (cs : List Char) : marks (cs.map .char) = [] := by
  unfold marks
  rw [List.filterMap_map]
  simp

/-- The tags that are read back are the tags among the items. -/
theorem marks_gather_strip (items : List Item) :
    (gather (strip items)).2.map Prod.fst = marks items := by
  rw [gather_strip, List.map_map]
  induction items with
  | nil => rfl
  | cons item items ih =>
    cases item with
    | mark m =>
      show m :: (gather items).2.map _ = m :: marks items
      rw [ih]
    | char c => exact ih

mutual

/-- A node closes the tags that it opens. -/
theorem isNested_node (n : Node) (stack : List String) (rest : List Mark) :
    isNested stack (marks (nodeItems n) ++ rest) = isNested stack rest := by
  cases n with
  | doctype name =>
    show isNested stack (.doctype name :: rest) = _
    rw [isNested]
  | text content =>
    rw [nodeItems, marks_char]
    rfl
  | void tag =>
    show isNested stack (.void tag.name (shown tag) :: rest) = _
    rw [isNested]
  | element tag children =>
    have hmarks : marks (nodeItems (.element tag children)) ++ rest
        = .opening tag.name (shown tag)
          :: (marks (forestItems children) ++ .closing tag.name :: rest) := by
      rw [nodeItems, ← List.singleton_append, marks_append, marks_append]
      simp [marks]
    -- the children leave the stack as it is, with the tag on top
    rw [hmarks, isNested, isNested_forest children, isNested]
    simp

/-- **The marks of a forest are nested**: they leave open what was open. -/
theorem isNested_forest (ns : List Node) (stack : List String) (rest : List Mark) :
    isNested stack (marks (forestItems ns) ++ rest) = isNested stack rest := by
  cases ns with
  | nil => rfl
  | cons n ns =>
    rw [forestItems, marks_append, List.append_assoc, isNested_node n, isNested_forest ns]

end

mutual

/-- Every tag inside a node that conforms does too. -/
theorem tagConforms_of_mem_nodesOf {value : AttributeValue → Bool} (level : Nat) (n : Node)
    (h : conforms value level n = true) :
    ∀ m ∈ nodesOf n, ∀ tag ∈ tag? m, tagConforms value tag = true := by
  intro m hm tag htag
  cases n with
  | doctype name =>
    rw [List.mem_singleton.mp hm] at htag
    exact absurd htag (by simp [tag?])
  | text content =>
    rw [List.mem_singleton.mp hm] at htag
    exact absurd htag (by simp [tag?])
  | void t =>
    rw [List.mem_singleton.mp hm] at htag
    obtain rfl : t = tag := by simpa [tag?] using htag
    simp only [conforms, Bool.and_eq_true] at h
    exact h.1.2
  | element t children =>
    simp only [conforms, Bool.and_eq_true] at h
    rw [nodesOf, List.mem_cons] at hm
    rcases hm with rfl | hm
    · obtain rfl : t = tag := by simpa [tag?] using htag
      exact h.1.1.2
    · exact tagConforms_of_mem (level + 1) children h.2 m hm tag htag

/-- The tags of a forest conform, at all depths. -/
theorem tagConforms_of_mem {value : AttributeValue → Bool} (level : Nat) (ns : List Node)
    (h : allConform value level ns = true) :
    ∀ m ∈ allNodes ns, ∀ tag ∈ tag? m, tagConforms value tag = true := by
  intro m hm tag htag
  cases ns with
  | nil => simp [allNodes] at hm
  | cons n ns =>
    rw [allConform, Bool.and_eq_true] at h
    rw [allNodes, List.mem_append] at hm
    rcases hm with hm | hm
    · exact tagConforms_of_mem_nodesOf level n h.1 m hm tag htag
    · exact tagConforms_of_mem level ns h.2 m hm tag htag

end

/-! ## §8. Generated pages. -/

/-- A page that reads back as its forest.  There is no page only if the forest
cannot be indented. -/
def ReadsBack (room : Text.Room) (o : Options) (forest : List Node) :
    Except GenerateError String → Prop
  | .error e => ∃ reason, overflow? room o forest = some reason ∧ e = .indentation reason
  | .ok html =>
    readMarkup html.toList = some (contents forest)
      ∧ isNested [] ((contents forest).2.map Prod.fst) = true
      ∧ ∀ node ∈ allNodes forest, ∀ tag ∈ tag? node, tag.classes ≠ [] →
          (classText tag.classes).splitOn ' ' = tag.classes.map String.toList

/-- **A page without a formatter** is written as the items of its forest, minified or
not. -/
theorem written_plainText {forest : List Node} (hconforms : allConform isReadValue 1 forest = true)
    (htame : ∀ m ∈ allNodes forest, Tame m) (o : Options) :
    Written (plainText o forest).toList (forestItems forest) := by
  have hrender : Written (render o forest) (forestItems forest) :=
    written_nodes o 0 1 (by decide) forest hconforms htame
  unfold plainText
  split
  next =>
    rw [markup, String.toList_ofList]
    exact hrender
  next =>
    rw [tidyString, markup, String.toList_ofList, String.toList_ofList]
    exact written_tidy hrender

/-- What a generator makes when no formatter is at work. -/
theorem generate_plain {g : Generator} {forest : List Node} {options : Option Options}
    (hplain : (options.getD g.options).useFormatter = false) (hlive : g.disposed = false)
    (files : Files) :
    (g.generate files forest options).result
      = match overflow? g.room (options.getD g.options) forest with
        | some reason => .error (.indentation reason)
        | none => .ok (plainText (options.getD g.options) forest) := by
  unfold Generator.generate
  cases hover : overflow? g.room (options.getD g.options) forest with
  | some reason => simp [hlive, hover]
  | none => simp [hlive, hplain, hover]

/-- **NO TEXT BECOMES MARKUP.**  The page that is generated from a source reads
back as the forest of the source, if this forest has no scripts, no style
sheets and no brackets in its document types. -/
theorem generate_reads_back (source : String) (forest : List Node) (g : Generator) (files : Files)
    (options : Option Options) (hparse : parse source = .ok forest)
    (hraw : ∀ node ∈ allNodes forest, ∀ tag ∈ tag? node, isRaw tag.name = false)
    (hdoctype : ∀ name, .doctype name ∈ allNodes forest → '<' ∉ name.toList ∧ '>' ∉ name.toList)
    (hplain : (options.getD g.options).useFormatter = false) (hlive : g.disposed = false) :
    ReadsBack g.room (options.getD g.options) forest (g.generate files forest options).result := by
  have hconforms := conforms_of_parse hparse
  -- without raw text and odd doctypes, the reader can tell every mark that was written
  have htame : ∀ m ∈ allNodes forest, Tame m := by
    intro m hm
    cases m with
    | doctype name => exact hdoctype name hm
    | text content => exact hraw _ hm
    | void tag => exact hraw _ hm
    | element tag children => exact hraw _ hm
  rw [generate_plain hplain hlive]
  cases hover : overflow? g.room (options.getD g.options) forest with
  | some reason => exact ⟨reason, hover, rfl⟩
  | none =>
    obtain ⟨its, hits, hstrip, hproper⟩ :=
      written_plainText hconforms htame (options.getD g.options)
    refine ⟨?_, ?_, ?_⟩
    · show readMarkup (plainText _ forest).toList = _
      rw [hits, readMarkup_write hproper, hstrip]
      rfl
    · have hnested := isNested_forest forest [] []
      rw [List.append_nil] at hnested
      rw [contents, marks_gather_strip, hnested]
      rfl
    · intro node hnode tag htag hne
      have htagged := tagConforms_of_mem 1 forest hconforms node hnode tag htag
      exact splitOn_classText hne (tagConforms_iff.mp htagged).2.2.1

/-- A generator of pretty markup without a formatter. -/
def plainGenerator : Generator :=
  { options := { useFormatter := false }, formatter := ⟨fun _ html => ⟨[], .ok html, none⟩⟩ }

/-- A page whose texts and values try to be markup. -/
def hostile : List Node :=
  [.doctype "html",
    .element ⟨"div", ["a", "b"], some "x", [⟨"title", .text "\"><br>&amp;"⟩, ⟨"hidden", .on⟩]⟩
      [.text "</div> &lt;", .void ⟨"br", [], none, []⟩, .text "<p>\n</p>"]]

/-- The source of that page. -/
def hostileSource : String :=
  "!DOCTYPE html\ndiv.a.b#x[title='\"><br>&amp;' hidden]: </div> &lt;\n  br\n  |\n    <p>\n    </p>"

theorem generate_reads_back_hostile :
    parse hostileSource = .ok hostile
      ∧ overflow? plainGenerator.room plainGenerator.options hostile = none
      ∧ ReadsBack plainGenerator.room plainGenerator.options hostile
          (plainGenerator.generate (Files.fresh []) hostile none).result := by
  have hparse : parse hostileSource = .ok hostile := by
    rw [parse_eq_ok_iff, check_eq_ok_iff]
    exact ⟨⟨by decide, by decide, by rfl⟩, by decide +kernel⟩
  have hnodes : allNodes hostile
      = [.doctype "html", hostile.get ⟨1, by decide⟩, .text "</div> &lt;",
          .void ⟨"br", [], none, []⟩, .text "<p>\n</p>"] := rfl
  refine ⟨hparse, by decide +kernel, generate_reads_back hostileSource hostile plainGenerator
    (Files.fresh []) none hparse ?_ ?_ rfl rfl⟩
  · rw [hnodes]
    simp [tag?, hostile]
    decide
  · rw [hnodes]
    simp [hostile]

end Offside.Markup
