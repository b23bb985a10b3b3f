/-
  Offside.Proofs.WellFormed
  ─────────────────────────
  The shape of the nodes that can be read and printed.

  `conforms` says what a node must be like at a nesting depth, for a given
  idea of what values attributes may have.  Every page that is read conforms
  with the values that a head can hold (`conforms_of_parse`): first for the
  parts of a head, then for what a single line makes, and from there for the
  nodes of a level by induction over the nesting.
-/
import Offside.Proofs.HeadGrammar

namespace Offside

open Text Head Document

/-! ## §1. The shape of nodes. -/

/-- A tag whose names are identifiers, its own starting with a letter, and
whose values pass a test. -/
def tagConforms (value : AttributeValue → Bool) (tag : Tag) : Bool :=
  isIdentifier tag.name && tag.name.toList.head?.any Char.isAlpha
    && tag.classes.all isIdentifier && tag.id.all isIdentifier
    && tag.attributes.all fun a => isIdentifier a.name && value a.value

/-- A text of one line, or of several lines that are all trimmed. -/
def isTextContent (content : List Char) : Bool :=
  !content.contains '\n' || (lines content).all isTrimmedLine

mutual

/-- A node that may stand at a nesting depth; the top level has depth one. -/
def conforms (value : AttributeValue → Bool) (depth : Nat) : Node → Bool
  | .doctype name => depth == 1 && isTrimmedLine name.toList
  | .text content => isTextContent content.toList
  | .void tag => decide (depth ≤ 128) && tagConforms value tag && tag.isVoid
  | .element tag children =>
    decide (depth ≤ 128) && tagConforms value tag && !tag.isVoid
      && allConform value (depth + 1) children

/-- Nodes that may all stand at a nesting depth. -/
def allConform (value : AttributeValue → Bool) (depth : Nat) : List Node → Bool
  | [] => true
  | node :: rest => conforms value depth node && allConform value depth rest

end

/-- A value that a head can hold: its text has one line, and is not too long
or was written without quotation marks. -/
def isReadValue : AttributeValue → Bool
  | .on => true
  | .off => false
  | .text value =>
    !value.toList.contains '\n'
      && (decide (value.toList.length ≤ 10000) || value.toList.all isBareChar)

section Shape

variable {value : AttributeValue → Bool} {depth : Nat}

/-- A tag conforms if its names are names, the first begins with a letter, and its
values are of the kind that is asked for. -/
theorem tagConforms_iff {tag : Tag} :
    tagConforms value tag = true ↔
      isIdentifier tag.name = true ∧ (∃ c ∈ tag.name.toList.head?, c.isAlpha = true)
        ∧ (∀ name ∈ tag.classes, isIdentifier name = true)
        ∧ (∀ name ∈ tag.id, isIdentifier name = true)
        ∧ ∀ a ∈ tag.attributes, isIdentifier a.name = true ∧ value a.value = true := by
  unfold tagConforms
  simp only [Bool.and_eq_true, List.all_eq_true, Option.all_eq_true, Option.any_eq_true,
    and_assoc]
  rfl

/-- A text of several lines has trimmed lines. -/
theorem isTextContent_iff {content : List Char} :
    isTextContent content = true ↔
      ('\n' ∈ content → ∀ line ∈ lines content, isTrimmedLine line = true) := by
  unfold isTextContent
  simp [or_iff_not_imp_left]

/-- A text of one line may be any text. -/
theorem isTextContent_of_not_mem {content : List Char} (h : '\n' ∉ content) :
    isTextContent content = true :=
  isTextContent_iff.mpr fun hmem => absurd hmem h

/-- Nodes conform if each of them does. -/
theorem allConform_iff {nodes : List Node} :
    allConform value depth nodes = true ↔ ∀ node ∈ nodes, conforms value depth node = true := by
  induction nodes with
  | nil => simp [allConform]
  | cons node rest ih => simp [allConform, ih]

end Shape

/-! ## §2. The parts of a head. -/

namespace Head

variable {cs rest : List Char}

/-- There is no newline behind a gap in a line. -/
theorem Gap.newline (h : Gap cs rest) (hcs : '\n' ∉ cs) : '\n' ∉ rest := by
  obtain ⟨run, rfl, -⟩ := h
  intro hmem
  exact hcs (List.mem_append_right _ hmem)

/-- There is no newline behind a name in a line. -/
theorem Identifier.newline {name : String} (h : Identifier cs name rest) (hcs : '\n' ∉ cs) :
    '\n' ∉ rest := by
  obtain ⟨-, rfl, -⟩ := identifier_iff.mp h
  intro hmem
  exact hcs (List.mem_append_right _ hmem)

/-- A name that is read is a name. -/
theorem Identifier.named {name : String} (h : Identifier cs name rest) :
    isIdentifier name = true :=
  (identifier_iff.mp h).1

/-- Classes that are read have names. -/
theorem Classes.conform {names : List String} (h : Classes cs names rest) (hcs : '\n' ∉ cs) :
    (∀ name ∈ names, isIdentifier name = true) ∧ '\n' ∉ rest := by
  induction h with
  | none _ => exact ⟨by simp, hcs⟩
  | more hname _ ih =>
    have hmid := hname.newline fun hmem => hcs (List.mem_cons_of_mem _ hmem)
    obtain ⟨hnames, hrest⟩ := ih hmid
    exact ⟨List.forall_mem_cons.mpr ⟨hname.named, hnames⟩, hrest⟩

/-- An id that is read has a name. -/
theorem Id.conform {tagId : Option String} (h : Id cs tagId rest) (hcs : '\n' ∉ cs) :
    (∀ name ∈ tagId, isIdentifier name = true) ∧ '\n' ∉ rest := by
  cases h with
  | none _ => exact ⟨by simp, hcs⟩
  | some hname =>
    refine ⟨?_, hname.newline fun hmem => hcs (List.mem_cons_of_mem _ hmem)⟩
    intro name hmem
    cases hmem
    exact hname.named

/-- A string says only what is written in it. -/
theorem Escaped.subset {mark : Char} {raw text : List Char} (h : Escaped mark raw text) :
    text ⊆ raw := by
  induction h with
  | nil => exact List.Subset.refl _
  | plain _ _ _ ih => exact List.cons_subset_cons _ ih
  | escape _ ih =>
    exact List.Subset.trans (List.cons_subset_cons _ ih) (List.subset_cons_self _ _)

/-- A quoted text that is read from a line has no newline in it. -/
theorem Quoted.newline {mark : Char} {s : String} (h : Quoted mark cs s rest) (hcs : '\n' ∉ cs) :
    '\n' ∉ s.toList ∧ '\n' ∉ rest := by
  obtain ⟨raw, text, rfl, hescaped, -, rfl⟩ := h
  rw [String.toList_ofList]
  constructor
  · intro hmem
    exact hcs (List.mem_append_left _ (hescaped.subset hmem))
  · intro hmem
    exact hcs (List.mem_append_right _ (List.mem_cons_of_mem _ hmem))

/-- A value that is read from a line is one that can be read. -/
theorem Value.conform {s : String} (h : Value cs s rest) (hcs : '\n' ∉ cs) :
    isReadValue (.text s) = true ∧ '\n' ∉ rest := by
  cases h with
  | quoted _ hquoted =>
    obtain ⟨hs, hrest⟩ := hquoted.newline fun hmem => hcs (List.mem_cons_of_mem _ hmem)
    obtain ⟨raw, text, -, -, hlen, rfl⟩ := hquoted
    rw [String.toList_ofList] at hs
    exact ⟨by simp [isReadValue, hs, hlen], hrest⟩
  | bare hrun _ _ =>
    -- a bare run may be of any length
    rw [List.mem_append, not_or] at hcs
    refine ⟨?_, hcs.2⟩
    have hall := List.all_eq_true.mpr hrun
    simp [isReadValue, hcs.1, hall]

/-- An attribute that is read has a name and such a value. -/
theorem AttributeText.conform {a : Attribute} (h : AttributeText cs a rest) (hcs : '\n' ∉ cs) :
    (isIdentifier a.name = true ∧ isReadValue a.value = true) ∧ '\n' ∉ rest := by
  cases h with
  | flag hname hgap _ =>
    exact ⟨⟨hname.named, rfl⟩, hgap.newline (hname.newline hcs)⟩
  | set hname hgap₁ hgap₂ hvalue =>
    have heq := hgap₁.newline (hname.newline hcs)
    have hstart := hgap₂.newline fun hmem => heq (List.mem_cons_of_mem _ hmem)
    obtain ⟨hv, hrest⟩ := hvalue.conform hstart
    exact ⟨⟨hname.named, hv⟩, hrest⟩

/-- So have the attributes of a list. -/
theorem Items.conform {as : List Attribute} (h : Items cs as rest) (hcs : '\n' ∉ cs) :
    (∀ a ∈ as, isIdentifier a.name = true ∧ isReadValue a.value = true) ∧ '\n' ∉ rest := by
  induction h with
  | none => exact ⟨by simp, hcs⟩
  | more hitem hgap _ ih =>
    obtain ⟨ha, hafter⟩ := hitem.conform hcs
    obtain ⟨has, hrest⟩ := ih (hgap.newline hafter)
    exact ⟨List.forall_mem_cons.mpr ⟨ha, has⟩, hrest⟩

/-- So have those of a block. -/
theorem Block.conform {as : List Attribute} (h : Block cs as rest) (hcs : '\n' ∉ cs) :
    (∀ a ∈ as, isIdentifier a.name = true ∧ isReadValue a.value = true) ∧ '\n' ∉ rest := by
  cases h with
  | mk hgap hitems _ hgap' =>
    have hstart := hgap.newline fun hmem => hcs (List.mem_cons_of_mem _ hmem)
    obtain ⟨has, hclose⟩ := hitems.conform hstart
    exact ⟨has, hgap'.newline fun hmem => hclose (List.mem_cons_of_mem _ hmem)⟩

/-- So have those of several blocks. -/
theorem Blocks.conform {as : List Attribute} (h : Blocks cs as rest) (hcs : '\n' ∉ cs) :
    (∀ a ∈ as, isIdentifier a.name = true ∧ isReadValue a.value = true) ∧ '\n' ∉ rest := by
  induction h with
  | none _ => exact ⟨by simp, hcs⟩
  | more hblock _ ih =>
    obtain ⟨has, hmid⟩ := hblock.conform hcs
    obtain ⟨hbs, hrest⟩ := ih hmid
    exact ⟨List.forall_mem_append.mpr ⟨has, hbs⟩, hrest⟩

/-- The text on a tag line has one line. -/
theorem TailText.newline {content : String} (h : TailText cs (.inline content))
    (hcs : '\n' ∉ cs) : '\n' ∉ content.toList := by
  cases h with
  | piped _ =>
    rw [String.toList_ofList]
    intro hmem
    exact hcs (List.mem_cons_of_mem _ (trim_subset _ (unquote_subset _ hmem)))
  | quoted hquoted _ =>
    exact (hquoted.newline fun hmem => hcs (List.mem_cons_of_mem _ hmem)).1
  | bare _ _ =>
    rw [String.toList_ofList]
    intro hmem
    exact hcs (trim_subset _ (unquote_subset _ hmem))

/-- The text behind a head has no newline in it. -/
theorem Ending.newline {start : List Char} {content : String}
    (h : Ending cs (.inline content) start) (hcs : '\n' ∉ cs) : '\n' ∉ content.toList := by
  cases h with
  | colon hgap hgap' htail =>
    have hcolon := hgap.newline hcs
    exact htail.newline (hgap'.newline fun hmem => hcolon (List.mem_cons_of_mem _ hmem))

/-- **A head conforms**, if it starts with a letter and has one line. -/
theorem HeadText.conform {text : List Char} {head : Head} (h : HeadText text head)
    (hletter : ∃ c ∈ text.head?, c.isAlpha = true) (htext : '\n' ∉ text) :
    tagConforms isReadValue head.tag = true
      ∧ ∀ content, head.tail = .inline content → '\n' ∉ content.toList := by
  obtain ⟨c₁, c₂, c₃, c₄, start, hname, hclasses, hid, hblocks, hending, -⟩ := h
  obtain ⟨hnames, hn₂⟩ := hclasses.conform (hname.newline htext)
  obtain ⟨hids, hn₃⟩ := hid.conform hn₂
  obtain ⟨hattributes, hn₄⟩ := hblocks.conform hn₃
  constructor
  · refine tagConforms_iff.mpr ⟨hname.named, ?_, hnames, hids, hattributes⟩
    obtain ⟨hidentifier, rfl, -⟩ := identifier_iff.mp hname
    -- a name is not empty, so it starts as the text does
    have hpos := (isIdentifier_iff.mp hidentifier).2.1
    rwa [List.head?_append_of_ne_nil _ (List.ne_nil_of_length_pos hpos)] at hletter
  · intro content htail
    rw [htail] at hending
    exact hending.newline hn₄

end Head

/-! ## §3. What a line makes. -/

/-- A line as a scan gives it. -/
structure Clean (line : Line) : Prop where
  trimmed : isTrimmedLine line.text.toList = true
  kind : LineKind.ofText? line.text.toList = some line.kind

/-- What a line makes may stand at a nesting depth. -/
def RoleConforms (depth : Nat) : Role → Prop
  | .leaf node => conforms isReadValue depth node = true
  | .textBlock => True
  | .verbatim tag => depth ≤ 128 ∧ tagConforms isReadValue tag = true ∧ tag.isVoid = false
  | .parent tag lead =>
    depth ≤ 128 ∧ tagConforms isReadValue tag = true ∧ tag.isVoid = false
      ∧ allConform isReadValue (depth + 1) lead = true

section Roles

variable {line : Line} {depth : Nat} {r : Role}

/-- A document type has a name: its line ends in something that is not
blank. -/
theorem isTrimmedLine_doctypeName {text : List Char} (h : isTrimmedLine text = true)
    (hkind : LineKind.ofText? text = some .doctype) :
    isTrimmedLine (trim (text.drop doctypeMark.length)) = true := by
  obtain ⟨hne, htrim, hnewline⟩ := isTrimmedLine_iff.mp h
  obtain ⟨name, rfl⟩ : doctypeMark <+: text := by
    cases text with
    | nil => exact absurd rfl hne
    | cons c cs =>
      unfold LineKind.ofText? at hkind
      simp only [Option.some.injEq] at hkind
      split at hkind
      next hmark => exact List.isPrefixOf_iff_prefix.mp hmark
      next => split at hkind <;> [skip; split at hkind] <;> exact absurd hkind (by decide)
  rw [List.drop_left]
  refine isTrimmedLine_iff.mpr ⟨?_, trim_trim _, ?_⟩
  · intro hblank
    have hall := trim_eq_nil_iff.mp hblank
    -- were the name blank, the trimmed line would end before the blank of the mark
    rw [trim_append_blank hall] at htrim
    have hlen := congrArg List.length htrim
    have hmark : (trim doctypeMark).length = 8 := by decide
    have hmark' : doctypeMark.length = 9 := by decide
    rw [hmark, List.length_append, hmark'] at hlen
    omega
  · intro hmem
    exact hnewline (List.mem_append_right _ (trim_subset _ hmem))

/-- A text gives a role that conforms. -/
theorem pipeRole_conforms {text : List Char} (h : '\n' ∉ text) :
    RoleConforms depth (pipeRole text) := by
  unfold pipeRole
  simp only
  split
  next => exact trivial
  next =>
    show conforms isReadValue depth (.text _) = true
    rw [conforms, String.toList_ofList]
    apply isTextContent_of_not_mem
    intro hmem
    exact h (List.drop_subset _ _ (trim_subset _ (unquote_subset _ hmem)))

/-- The text behind a head gives a child that conforms. -/
theorem leading_conforms {content : String} (h : '\n' ∉ content.toList) :
    allConform isReadValue depth (leading content) = true := by
  unfold leading
  split
  next => rfl
  next =>
    rw [allConform_iff]
    intro node hnode
    rw [List.mem_singleton.mp hnode, conforms]
    exact isTextContent_of_not_mem h

/-- **A head** gives a role that conforms. -/
theorem headRole_conforms {head : Head} (hdepth : depth ≤ 128)
    (htag : tagConforms isReadValue head.tag = true)
    (htail : ∀ content, head.tail = .inline content → '\n' ∉ content.toList)
    (h : headRole line head = .ok r) : RoleConforms depth r := by
  unfold headRole at h
  split at h
  next hvoid =>
    -- a void tag has nothing after its head
    split at h
    next =>
      injection h with h
      subst h
      show conforms isReadValue depth (.void head.tag) = true
      simp [conforms, hdepth, htag, hvoid]
    next => exact absurd h (by simp)
  next hvoid =>
    rw [Bool.not_eq_true] at hvoid
    split at h
    next =>
      injection h with h
      subst h
      exact ⟨hdepth, htag, hvoid⟩
    next =>
      injection h with h
      subst h
      exact ⟨hdepth, htag, hvoid, rfl⟩
    next content hcontent =>
      injection h with h
      subst h
      exact ⟨hdepth, htag, hvoid, leading_conforms (htail content hcontent)⟩

/-- A line that is a tag begins with a letter. -/
theorem isAlpha_of_kind {text : List Char} (h : LineKind.ofText? text = some .tag) :
    ∃ c ∈ text.head?, c.isAlpha = true := by
  cases text with
  | nil => exact absurd h (by simp [LineKind.ofText?])
  | cons c cs =>
    refine ⟨c, rfl, ?_⟩
    by_contra hc
    unfold LineKind.ofText? at h
    simp only [hc, Option.some.injEq] at h
    split at h <;> [skip; split at h] <;> simp at h

/-- **What a line makes conforms.** -/
theorem role_conforms (hpos : 1 ≤ depth) (hclean : Clean line)
    (h : role depth line = .ok r) : RoleConforms depth r := by
  obtain ⟨htrim, hkind⟩ := hclean
  have hnewline := (isTrimmedLine_iff.mp htrim).2.2
  unfold role at h
  cases hline : line.kind with
  | doctype =>
    rw [hline] at hkind
    simp only [hline] at h
    split at h
    next => exact absurd h (by simp)
    next hdepth =>
      -- deeper down a document type is refused
      injection h with h
      subst h
      have hone : depth = 1 := by omega
      show conforms isReadValue depth (.doctype _) = true
      rw [conforms, String.toList_ofList, isTrimmedLine_doctypeName htrim hkind, hone]
      rfl
  | pipe =>
    simp only [hline] at h
    injection h with h
    subst h
    exact pipeRole_conforms hnewline
  | tag =>
    rw [hline] at hkind
    simp only [hline, tagRole] at h
    split at h
    next => exact absurd h (by simp)
    next hdepth =>
      have hdepth' : depth ≤ 128 := Nat.not_lt.mp hdepth
      cases hread : Head.read line.text.toList with
      | error fault => simp [hread] at h
      | ok head =>
        simp only [hread] at h
        obtain ⟨htag, htail⟩ := (headText_of_read hread).conform (isAlpha_of_kind hkind) hnewline
        exact headRole_conforms hdepth' htag htail h
  | text =>
    simp only [hline] at h
    injection h with h
    subst h
    show conforms isReadValue depth (.text line.text) = true
    rw [conforms]
    exact isTextContent_of_not_mem hnewline

end Roles

/-! ## §4. Nesting. -/

theorem below_subset (line : Line) (rest : List Line) : below line rest ⊆ line :: rest :=
  fun _ h => List.mem_cons_of_mem _ ((List.takeWhile_sublist _).subset h)

theorem beyond_subset (line : Line) (rest : List Line) : beyond line rest ⊆ line :: rest :=
  fun _ h => List.mem_cons_of_mem _ ((List.dropWhile_sublist _).subset h)

/-- A block of trimmed lines is a text of one line, or of trimmed lines. -/
theorem blockText_conforms {block : List Line} (h : ∀ line ∈ block, Clean line) :
    isTextContent (blockText block).toList = true := by
  rw [isTextContent_iff, blockText, String.toList_ofList]
  intro hnewline text htext
  have hne : block.map (fun l => l.text.toList) ≠ [] := by
    intro hnil
    rw [hnil] at hnewline
    exact absurd hnewline (by simp)
  have hlines : ∀ l ∈ block.map (fun l => l.text.toList), '\n' ∉ l := by
    intro l hl
    obtain ⟨line, hline, rfl⟩ := List.mem_map.mp hl
    exact (isTrimmedLine_iff.mp (h line hline).trimmed).2.2
  rw [lines_unlines hne hlines] at htext
  obtain ⟨line, hline, rfl⟩ := List.mem_map.mp htext
  exact (h line hline).trimmed

/-- **The nodes of a level conform**, if those made before do. -/
theorem forest_conforms {depth : Nat} {done nodes : List Node} {ls : List Line}
    (hpos : 1 ≤ depth) (hclean : ∀ line ∈ ls, Clean line)
    (hdone : ∀ node ∈ done, conforms isReadValue depth node = true)
    (h : forest depth done ls = .ok nodes) :
    ∀ node ∈ nodes, conforms isReadValue depth node = true := by
  -- the invariant is on `done`: every case puts one more node there that conforms
  fun_induction forest depth done ls generalizing nodes with
  | case1 depth done =>
    injection h with h
    intro node hnode
    rw [← h, List.mem_reverse] at hnode
    exact hdone node hnode
  | case2 depth done line rest fault hrole => exact absurd h (by simp)
  | case3 depth done line rest node hrole ih =>
    have hnode := role_conforms hpos (hclean line List.mem_cons_self) hrole
    exact ih hpos (fun l hl => hclean l (List.mem_cons_of_mem _ hl))
      (List.forall_mem_cons.mpr ⟨hnode, hdone⟩) h
  | case4 depth done line rest hrole ih =>
    have hblock : conforms isReadValue depth (.text (blockText (below line rest))) = true := by
      rw [conforms]
      exact blockText_conforms fun l hl => hclean l (below_subset line rest hl)
    exact ih hpos (fun l hl => hclean l (beyond_subset line rest hl))
      (List.forall_mem_cons.mpr ⟨hblock, hdone⟩) h
  | case5 depth done line rest tag hrole block =>
    rename_i children ih
    obtain ⟨hdepth, htag, hvoid⟩ := role_conforms hpos (hclean line List.mem_cons_self) hrole
    have hblock : isTextContent (blockText block).toList = true :=
      blockText_conforms fun l hl => hclean l (below_subset line rest hl)
    have hchildren : allConform isReadValue (depth + 1) children = true := by
      show allConform isReadValue (depth + 1)
        (if block.isEmpty then [] else [.text (blockText block)]) = true
      split
      next => rfl
      next =>
        rw [allConform, allConform, conforms, hblock]
        rfl
    have hnode : conforms isReadValue depth (.element tag children) = true := by
      simp [conforms, hdepth, htag, hvoid, hchildren]
    exact ih hpos (fun l hl => hclean l (beyond_subset line rest hl))
      (List.forall_mem_cons.mpr ⟨hnode, hdone⟩) h
  | case6 depth done line rest tag front hrole fault hinner ih => exact absurd h (by simp)
  | case7 depth done line rest tag front hrole inner hinner ih₁ ih₂ =>
    obtain ⟨hdepth, htag, hvoid, hfront⟩ :=
      role_conforms hpos (hclean line List.mem_cons_self) hrole
    have hchildren := ih₁ (Nat.le_succ_of_le hpos)
      (fun l hl => hclean l (below_subset line rest hl)) (allConform_iff.mp hfront) hinner
    have hnode : conforms isReadValue depth (.element tag inner) = true := by
      simp [conforms, hdepth, htag, hvoid, allConform_iff.mpr hchildren]
    exact ih₂ hpos (fun l hl => hclean l (beyond_subset line rest hl))
      (List.forall_mem_cons.mpr ⟨hnode, hdone⟩) h

/-- **Every page that is read conforms.** -/
theorem conforms_of_parse {source : String} {nodes : List Node} (h : parse source = .ok nodes) :
    allConform isReadValue 1 nodes = true := by
  obtain ⟨-, hforest⟩ := parse_eq_ok_iff.mp h
  rw [allConform_iff]
  refine forest_conforms (Nat.le_refl 1) ?_ (by simp) hforest
  intro line hline
  exact ⟨isTrimmedLine_of_mem_scan hline, kind_of_mem_scan hline⟩

end Offside
