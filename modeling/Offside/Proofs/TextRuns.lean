/-
  Offside.Proofs.TextRuns
  ───────────────────────
  **WHAT IS WRITTEN FOR TEXTS.**

  Texts that follow each other in a tag are a run.  To say which part of a page
  was written for a run, the forest is seen as a `Hole` with the run in it: the
  page is what the hole makes of its surroundings, in front and behind, and what
  is `written` in between (`render_fill`).  Only the latter depends on the run.

  Pretty markup puts every text on lines of its own, so it has the words of each
  of them (`words_nodes_pretty`).  Minified markup puts nothing between siblings:
  the last word of a text and the first word of the next one are one word
  (`words_nodes_minified`).  A text that is alone in its tag can stand on the line
  of the tag, where minified markup does not trim it.
-/
import Offside.Proofs.Layout
import Offside.Proofs.PageLines
import Offside.Proofs.Words

namespace Offside.Markup

open Text

/-! ## §1. Holes. -/

/-- A place for nodes in a forest: between siblings at the top, or between siblings
inside a tag that has a place of its own. -/
inductive Hole where
  | top (before after : List Node)
  | inside (outer : Hole) (tag : Tag) (before after : List Node)

namespace Hole

/-- The depth of the nodes in the place. -/
def depth : Hole → Nat
  | top _ _ => 0
  | inside outer _ _ _ => outer.depth + 1

/-- The name of the tag around the place. -/
def parent : Hole → String
  | top _ _ => ""
  | inside _ tag _ _ => tag.name

/-- The forest with nodes put in the place. -/
def fill : Hole → List Node → List Node
  | top before after, ns => before ++ ns ++ after
  | inside outer tag before after, ns => outer.fill [.element tag (before ++ ns ++ after)]

/-- The markup in front of nodes that stand on lines of their own. -/
def ahead (o : Options) : Hole → List Char
  | top before _ => nodes o 0 "" before
  | inside outer tag before _ =>
    outer.ahead o ++ indentation o outer.depth ++ opening tag ++ newline o
      ++ nodes o (outer.depth + 1) tag.name before

/-- The markup behind such nodes. -/
def behind (o : Options) : Hole → List Char
  | top _ after => nodes o 0 "" after
  | inside outer tag _ after =>
    nodes o (outer.depth + 1) tag.name after ++ indentation o outer.depth ++ closing tag
      ++ newline o ++ outer.behind o

end Hole

/-- What stands between the opening and the closing tag of an element. -/
def interior (o : Options) (depth : Nat) (tag : Tag) (children : List Node) : List Char :=
  if children.isEmpty then []
  else
    match inlineText? tag children with
    | some written => written
    | none => newline o ++ nodes o (depth + 1) tag.name children ++ indentation o depth

namespace Hole

/-- The markup in front of what is written in the place.  What is alone in its tag may
stand on the line of the tag. -/
def front (o : Options) : Hole → List Char
  | inside outer tag [] [] => outer.ahead o ++ indentation o outer.depth ++ opening tag
  | hole => hole.ahead o

/-- The markup behind it. -/
def back (o : Options) : Hole → List Char
  | inside outer tag [] [] => closing tag ++ newline o ++ outer.behind o
  | hole => hole.behind o

/-- **What is written** for nodes in the place. -/
def written (o : Options) : Hole → List Node → List Char
  | inside outer tag [] [], ns => interior o outer.depth tag ns
  | hole, ns => nodes o hole.depth hole.parent ns

end Hole

/-! ## §2. A page around a hole. -/

section Fill

variable {o : Options} {depth : Nat} {parent : String} {tag : Tag}

/-- Nodes in a row are written in a row. -/
theorem nodes_append (o : Options) (depth : Nat) (parent : String) (ms ns : List Node) :
    nodes o depth parent (ms ++ ns) = nodes o depth parent ms ++ nodes o depth parent ns := by
  induction ms with
  | nil => rfl
  | cons m ms ih =>
    rw [List.cons_append, nodes, nodes, ih]
    simp only [List.append_assoc]

/-- An element is its indentation, its opening tag, its interior and its closing tag.
-/
theorem node_eq_interior (o : Options) (depth : Nat) (parent : String) (tag : Tag)
    (children : List Node) :
    node o depth parent (.element tag children)
      = indentation o depth ++ opening tag ++ interior o depth tag children ++ closing tag := by
  rw [node, interior]
  split
  next => simp
  next =>
    cases inlineText? tag children with
    | some written => rfl
    | none => simp

/-- Only a text that is alone stands on the line of its tag. -/
theorem inlineText?_siblings {before ns after : List Node} (hns : ns ≠ [])
    (h : before ≠ [] ∨ after ≠ [] ∨ ∀ content, ns ≠ [.text content]) :
    inlineText? tag (before ++ ns ++ after) = none := by
  unfold inlineText?
  split
  next content hone =>
    exfalso
    have hlength := congrArg List.length hone
    rw [List.length_append, List.length_append, List.length_singleton] at hlength
    have hpos := List.length_pos_of_ne_nil hns
    have hbefore : before = [] := List.eq_nil_of_length_eq_zero (by omega)
    have hafter : after = [] := List.eq_nil_of_length_eq_zero (by omega)
    rw [hbefore, hafter, List.append_nil] at hone
    rcases h with h | h | h
    · exact h hbefore
    · exact h hafter
    · exact h content hone
  next => rfl

/-- Nodes on lines of their own, between their siblings. -/
theorem interior_siblings {before ns after : List Node} (hns : ns ≠ [])
    (h : before ≠ [] ∨ after ≠ [] ∨ ∀ content, ns ≠ [.text content]) :
    interior o depth tag (before ++ ns ++ after)
      = newline o ++ nodes o (depth + 1) tag.name before ++ nodes o (depth + 1) tag.name ns
        ++ (nodes o (depth + 1) tag.name after ++ indentation o depth) := by
  unfold interior
  rw [if_neg (by simp [hns]), inlineText?_siblings hns h]
  simp only [nodes_append, List.append_assoc]

namespace Hole

/-- **A node that is no text**, wherever it stands. -/
theorem render_fill_node (o : Options) (hole : Hole) {n : Node} (hn : ∀ content, n ≠ .text content) :
    render o (hole.fill [n])
      = hole.ahead o ++ (node o hole.depth hole.parent n ++ newline o) ++ hole.behind o := by
  induction hole generalizing n with
  | top before after =>
    show nodes o 0 "" (before ++ [n] ++ after) = _
    rw [nodes_append, nodes_append, nodes, nodes, List.append_nil]
    rfl
  | inside outer tag before after ih =>
    have halone : ∀ content, [n] ≠ [Node.text content] :=
      fun content h => hn content (by simpa using h)
    show render o (outer.fill [.element tag (before ++ [n] ++ after)]) = _
    rw [ih (by simp), node_eq_interior,
      interior_siblings (List.cons_ne_nil n []) (.inr (.inr halone)), nodes, nodes, List.append_nil]
    simp only [ahead, behind, Hole.depth, Hole.parent, List.append_assoc]

/-- **A page around a hole**: only what is written in the hole depends on what is in
it. -/
theorem render_fill (o : Options) (hole : Hole) {ns : List Node} (hns : ns ≠ []) :
    render o (hole.fill ns) = hole.front o ++ hole.written o ns ++ hole.back o := by
  cases hole with
  | top before after =>
    show nodes o 0 "" (before ++ ns ++ after) = _
    rw [nodes_append, nodes_append]
    rfl
  | inside outer tag before after =>
    show render o (outer.fill [.element tag (before ++ ns ++ after)]) = _
    rw [render_fill_node o outer (by simp), node_eq_interior]
    -- only what stands alone in an element may be written on its line
    by_cases halone : before = [] ∧ after = []
    · obtain ⟨rfl, rfl⟩ := halone
      simp only [front, written, back, List.nil_append, List.append_nil, List.append_assoc]
    · have hsiblings : before ≠ [] ∨ after ≠ [] := by
        by_contra h
        rw [not_or, not_not, not_not] at h
        exact halone h
      rw [interior_siblings hns (hsiblings.imp_right .inl)]
      have hfront : (inside outer tag before after).front o = (inside outer tag before after).ahead o
          ∧ (inside outer tag before after).back o = (inside outer tag before after).behind o
          ∧ (inside outer tag before after).written o ns
            = nodes o (outer.depth + 1) tag.name ns := by
        cases before with
        | cons n before => exact ⟨rfl, rfl, rfl⟩
        | nil =>
          cases after with
          | cons n after => exact ⟨rfl, rfl, rfl⟩
          | nil => exact absurd ⟨rfl, rfl⟩ halone
      rw [hfront.1, hfront.2.1, hfront.2.2]
      simp only [ahead, behind, List.append_assoc]

end Hole

end Fill

/-! ## §3. The words of a text. -/

section Texts

variable {o : Options} {depth : Nat} {parent : String}

/-- Texts in a row are escaped in a row. -/
theorem escape_append (a b : List Char) : escape (a ++ b) = escape a ++ escape b :=
  List.flatMap_append

/-- Only nothing is escaped to nothing. -/
theorem escape_eq_nil_iff {cs : List Char} : escape cs = [] ↔ cs = [] := by
  constructor
  · intro h
    cases cs with
    | nil => rfl
    | cons c cs =>
      rw [escape, List.flatMap_cons, List.append_eq_nil_iff] at h
      exact absurd h.1 (writeItem_ne_nil (.char c))
  · intro h
    rw [h]
    rfl

/-- Blanks are their own escape. -/
theorem escape_of_blank {cs : List Char} (h : ∀ c ∈ cs, isBlank c = true) : escape cs = cs := by
  induction cs with
  | nil => rfl
  | cons c cs ih =>
    rw [escape, List.flatMap_cons, escapeChar_of_isBlank (h c List.mem_cons_self)]
    show c :: escape cs = c :: cs
    rw [ih fun d hd => h d (List.mem_cons_of_mem c hd)]

/-- A newline is its own escape. -/
theorem newline_mem_escape {cs : List Char} (h : '\n' ∈ cs) : '\n' ∈ escape cs :=
  List.mem_flatMap.mpr ⟨'\n', h, by decide⟩

/-- What is not blank is escaped to what is not blank. -/
theorem escape_inked {cs : List Char} (h : ∀ c ∈ cs, isBlank c = false) :
    ∀ c ∈ escape cs, isBlank c = false := by
  intro d hd
  obtain ⟨c, hc, hd⟩ := List.mem_flatMap.mp hd
  exact isBlank_of_mem_escapeChar (h c hc) hd

/-- **Escaping goes word by word.** -/
theorem words_escape (cs : List Char) : words (escape cs) = (words cs).map escape := by
  -- the induction takes the first word off and goes on behind it
  induction hn : cs.length using Nat.strong_induction_on generalizing cs with
  | _ n ih =>
    by_cases hblank : ∀ c ∈ cs, isBlank c = true
    · rw [escape_of_blank hblank, words_of_blank hblank]
      rfl
    · obtain ⟨gap, word, rest, rfl, hgap, hne, hword, hrest⟩ := exists_first_word hblank
      have hshorter : rest.length < n := by
        have hpos := List.length_pos_of_ne_nil hne
        rw [← hn, List.length_append, List.length_append]
        omega
      have hstops : Stops (fun c => !isBlank c) (escape rest) := by
        cases rest with
        | nil => exact stops_nil
        | cons c rest =>
          have hc : isBlank c = true := by simpa using hrest
          rw [escape, List.flatMap_cons, escapeChar_of_isBlank hc]
          simpa using hc
      rw [escape_append, escape_append, escape_of_blank hgap, words_blank_append hgap,
        words_blank_append hgap, words_run_append hne hword hrest,
        words_run_append (fun h => hne (escape_eq_nil_iff.mp h)) (escape_inked hword) hstops,
        ih _ hshorter rest rfl, List.map_cons]

/-- The words of a text are escaped one by one. -/
theorem words_emit (parent : String) (cs : List Char) :
    words (emit parent cs) = (words cs).map (emit parent) := by
  unfold emit
  split
  · exact (List.map_id _).symm
  · exact words_escape cs

/-- The words of a text as they are written inside a tag of the name `parent`. -/
def textWords (parent content : String) : List (List Char) :=
  (words content.toList).map (emit parent)

/-- The words of a text on lines of its own are those of its lines. -/
theorem words_block {pad : List Char} (hpad : ∀ c ∈ pad, isBlank c = true)
    (pieces : List (List Char)) :
    words (block parent pad pieces) = (pieces.flatMap words).map (emit parent) := by
  induction pieces with
  | nil => rfl
  | cons piece rest ih =>
    rw [List.flatMap_cons, List.map_append, ← ih]
    by_cases hblank : trim piece = []
    · have hpiece : words piece = [] := by
        rw [← words_trim, hblank, words_nil]
      rw [block_cons_blank hblank, hpiece]
      rfl
    · have hpiece : words (pad ++ emit parent (trim piece)) = (words piece).map (emit parent) := by
        rw [words_blank_append hpad, words_emit, words_trim]
      rw [block_cons_inked hblank, ← hpiece]
      cases rest with
      | nil => simp [block]
      | cons next rest =>
        rw [← words_append_cons isBlank_newline]
        simp

/-- **The words of a text**, in any layout. -/
theorem words_text (o : Options) (depth : Nat) (parent content : String) :
    words (text o depth parent content) = textWords parent content := by
  unfold text textWords
  simp only
  split
  next =>
    rw [words_emit, words_joined]
    split
    · exact isBlank_newline
    · exact isBlank_space
  next =>
    split
    next piece hpiece =>
      rw [words_blank_append (indentation_blank o depth), words_emit, words_trim,
        words_eq_flatMap_lines content.toList, hpiece]
      simp
    next => rw [words_block (indentation_blank o depth), ← words_eq_flatMap_lines]

/-- The text on the line of a tag has the words of the only child. -/
theorem words_inlineText {tag : Tag} {content : String} {written : List Char}
    (h : inlineText? tag [.text content] = some written) :
    words written = textWords tag.name content := by
  unfold inlineText? at h
  simp only [Option.ite_none_right_eq_some, Option.some.injEq] at h
  rw [← h.2]
  unfold textWords emit
  split
  · rw [words_trim]
    exact (List.map_id _).symm
  · exact words_escape _

/-! ## §4. The words of a run. -/

/-- **Pretty markup keeps texts apart**: a run has the words of each of its texts. -/
theorem words_nodes_pretty (ho : o.minify = false) (run : List String) :
    words (nodes o depth parent (run.map .text)) = run.flatMap (textWords parent) := by
  induction run with
  | nil => rfl
  | cons content run ih =>
    have hnewline : newline o = ['\n'] := by simp [newline, ho]
    rw [List.map_cons, nodes, node, hnewline, List.append_assoc, List.singleton_append,
      words_append_cons isBlank_newline, words_text, ih, List.flatMap_cons]

/-! ## §5. Minified texts. -/

/-- The lines of a text that say something, trimmed. -/
def saidLines (cs : List Char) : List (List Char) :=
  ((lines cs).map trim).filter fun l => !l.isEmpty

/-- A text as minified markup should have it: the lines that say something, joined by
spaces, or by newlines where it is not escaped. -/
def flowed (parent content : String) : List Char :=
  emit parent ([if isRaw parent then '\n' else ' '].intercalate (saidLines content.toList))

/-- In minified markup, a text flows. -/
theorem text_minified (ho : o.minify = true) (depth : Nat) (parent content : String) :
    text o depth parent content = flowed parent content := by
  unfold text
  simp only [ho, if_true]
  rfl

/-- A line of a text that says something is trimmed. -/
theorem trimmed_of_mem_saidLines {cs l : List Char} (h : l ∈ saidLines cs) :
    l ≠ [] ∧ Stops isBlank l ∧ Stops isBlank l.reverse := by
  obtain ⟨hmem, hne⟩ := List.mem_filter.mp h
  obtain ⟨piece, -, rfl⟩ := List.mem_map.mp hmem
  exact ⟨by simpa using hne, stops_trim piece, stops_reverse_trim piece⟩

/-- Lines that are joined start as the first of them does, and end as the last. -/
theorem stops_intercalate (sep : List Char) (ls : List (List Char))
    (h : ∀ l ∈ ls, l ≠ [] ∧ Stops isBlank l ∧ Stops isBlank l.reverse) :
    Stops isBlank (sep.intercalate ls) ∧ Stops isBlank (sep.intercalate ls).reverse
      ∧ (sep.intercalate ls = [] → ls = []) := by
  induction ls with
  | nil => exact ⟨stops_nil, stops_nil, fun _ => rfl⟩
  | cons l ls ih =>
    obtain ⟨⟨hne, hfirst, hlast⟩, hrest⟩ := List.forall_mem_cons.mp h
    cases ls with
    | nil =>
      rw [List.intercalate_singleton]
      exact ⟨hfirst, hlast, fun hnil => absurd hnil hne⟩
    | cons m ms =>
      obtain ⟨-, hend, hnil⟩ := ih hrest
      have hmore : sep.intercalate (m :: ms) ≠ [] := fun hempty => absurd (hnil hempty) (by simp)
      rw [List.intercalate_cons_cons, List.append_assoc]
      refine ⟨stops_append_of_ne_nil hne hfirst _, ?_, fun hempty => ?_⟩
      · rw [List.reverse_append, List.reverse_append, List.append_assoc]
        exact stops_append_of_ne_nil (by simpa using hmore) hend _
      · exact absurd (List.append_eq_nil_iff.mp hempty).1 hne

/-- Escaping puts no blank in front. -/
theorem stops_escape {cs : List Char} (h : Stops isBlank cs) : Stops isBlank (escape cs) := by
  cases cs with
  | nil => exact stops_nil
  | cons c cs =>
    rw [stops_cons] at h
    rw [escape, List.flatMap_cons]
    refine stops_append_of_ne_nil (writeItem_ne_nil (.char c)) ?_ _
    intro d hd
    exact isBlank_of_mem_escapeChar h (List.mem_of_mem_head? hd)

/-- Escaping puts no blank at the end. -/
theorem stops_reverse_escape {cs : List Char} (h : Stops isBlank cs.reverse) :
    Stops isBlank (escape cs).reverse := by
  induction cs using List.reverseRecOn with
  | nil => exact stops_nil
  | append_singleton cs c _ =>
    rw [List.reverse_append, List.reverse_singleton, List.singleton_append, stops_cons] at h
    have hsingle : escape [c] = escapeChar c := by simp [escape]
    rw [escape_append, hsingle, List.reverse_append]
    have hne : escapeChar c ≠ [] := writeItem_ne_nil (.char c)
    refine stops_append_of_ne_nil (by simpa using hne) ?_ _
    intro d hd
    exact isBlank_of_mem_escapeChar h (List.mem_reverse.mp (List.mem_of_mem_head? hd))

/-- Blanks at the ends are neither made nor lost by writing a text. -/
theorem stops_emit {cs : List Char} (h : Stops isBlank cs) (h' : Stops isBlank cs.reverse) :
    Stops isBlank (emit parent cs) ∧ Stops isBlank (emit parent cs).reverse := by
  unfold emit
  split
  · exact ⟨h, h'⟩
  · exact ⟨stops_escape h, stops_reverse_escape h'⟩

/-- A minified text has no blanks at its ends. -/
theorem stops_flowed (parent content : String) :
    Stops isBlank (flowed parent content) ∧ Stops isBlank (flowed parent content).reverse := by
  obtain ⟨hfirst, hlast, -⟩ := stops_intercalate [if isRaw parent then '\n' else ' ']
    (saidLines content.toList) fun l hl => trimmed_of_mem_saidLines hl
  exact stops_emit hfirst hlast

theorem newline_minified (ho : o.minify = true) : newline o = [] := by simp [newline, ho]

/-- Minified markup is not indented. -/
theorem indentation_minified (ho : o.minify = true) (depth : Nat) : indentation o depth = [] := by
  simp [indentation, ho]

/-- **Minified markup fuses texts**: where two of them meet there is no blank. -/
theorem words_nodes_minified (ho : o.minify = true) (run : List String) :
    words (nodes o depth parent (run.map .text)) = (run.map (textWords parent)).foldr fuse []
      ∧ Stops isBlank (nodes o depth parent (run.map .text)) := by
  induction run with
  | nil => exact ⟨rfl, stops_nil⟩
  | cons content run ih =>
    obtain ⟨hwords, hstops⟩ := ih
    obtain ⟨hfirst, hlast⟩ := stops_flowed parent content
    have hnodes : nodes o depth parent ((content :: run).map .text)
        = flowed parent content ++ nodes o depth parent (run.map .text) := by
      rw [List.map_cons, nodes, node, newline_minified ho, text_minified ho, List.append_nil]
    have htext : words (flowed parent content) = textWords parent content := by
      rw [← text_minified ho depth, words_text]
    rw [hnodes]
    refine ⟨?_, stops_append hfirst hstops⟩
    rw [words_append hlast hstops, htext, hwords, List.map_cons, List.foldr_cons]

/-- Whether a text says something. -/
def saysSomething (content : String) : Bool := !(words content.toList).isEmpty

/-- A text has words exactly if it says something. -/
theorem textWords_eq_nil_iff {content : String} :
    textWords parent content = [] ↔ saysSomething content = false := by
  unfold textWords saysSomething
  rw [List.map_eq_nil_iff]
  simp

/-- A text that says something has words. -/
theorem textWords_ne_nil (parent : String) {content : String} (h : saysSomething content = true) :
    textWords parent content ≠ [] := by
  intro hnil
  rw [textWords_eq_nil_iff.mp hnil] at h
  exact absurd h (by decide)

/-- A run of texts comes to nothing exactly if none of them says something. -/
theorem fused_eq_nil_iff (parent : String) (run : List String) :
    (run.map (textWords parent)).foldr fuse [] = [] ↔ run.filter saysSomething = [] := by
  induction run with
  | nil => simp
  | cons content run ih =>
    rw [List.map_cons, List.foldr_cons]
    cases hsome : saysSomething content with
    | false =>
      rw [textWords_eq_nil_iff.mpr hsome, fuse_nil_left, List.filter_cons_of_neg (by simp [hsome])]
      exact ih
    | true =>
      have hwords := textWords_ne_nil parent hsome
      have hpos := List.length_pos_of_ne_nil hwords
      have hlength := length_fuse (textWords parent content)
        ((run.map (textWords parent)).foldr fuse [])
      rw [List.filter_cons_of_pos hsome]
      refine iff_of_false (fun hnil => ?_) (List.cons_ne_nil _ _)
      rw [hnil, List.length_nil] at hlength
      split at hlength
      next => omega
      next hboth =>
        have := List.length_pos_of_ne_nil (not_or.mp hboth).2
        omega

/-- A word is lost for each text that says something, but for the first of them. -/
theorem length_fused (parent : String) (run : List String) :
    ((run.map (textWords parent)).foldr fuse []).length + ((run.filter saysSomething).length - 1)
      = (run.flatMap (textWords parent)).length := by
  induction run with
  | nil => rfl
  | cons content run ih =>
    rw [List.map_cons, List.foldr_cons, List.flatMap_cons, List.length_append]
    cases hsome : saysSomething content with
    | false =>
      rw [textWords_eq_nil_iff.mpr hsome, fuse_nil_left, List.filter_cons_of_neg (by simp [hsome]),
        ih, List.length_nil, Nat.zero_add]
    | true =>
      have hwords := textWords_ne_nil parent hsome
      have hlength := length_fuse (textWords parent content)
        ((run.map (textWords parent)).foldr fuse [])
      rw [List.filter_cons_of_pos hsome, List.length_cons]
      by_cases hrest : (run.map (textWords parent)).foldr fuse [] = []
      · -- nothing follows that the text could be fused with
        have hnone := (fused_eq_nil_iff parent run).mp hrest
        rw [if_pos (.inr hrest)] at hlength
        rw [hnone, List.length_nil] at ih ⊢
        omega
      · have hmore : (run.filter saysSomething).length ≠ 0 := by
          intro hzero
          exact hrest ((fused_eq_nil_iff parent run).mpr (List.eq_nil_of_length_eq_zero hzero))
        rw [if_neg (by simp [hwords, hrest])] at hlength
        omega

/-- **Fused texts** have the words of each of them only if at most one of them says
something. -/
theorem fused_eq_flatMap_iff (parent : String) (run : List String) :
    (run.map (textWords parent)).foldr fuse [] = run.flatMap (textWords parent)
      ↔ (run.filter saysSomething).length ≤ 1 := by
  constructor
  · intro h
    have hlength := length_fused parent run
    rw [h] at hlength
    omega
  · intro h
    induction run with
    | nil => rfl
    | cons content run ih =>
      rw [List.map_cons, List.foldr_cons, List.flatMap_cons]
      cases hsome : saysSomething content with
      | false =>
        rw [List.filter_cons_of_neg (by simp [hsome])] at h
        rw [textWords_eq_nil_iff.mpr hsome, fuse_nil_left, List.nil_append, ih h]
      | true =>
        rw [List.filter_cons_of_pos hsome, List.length_cons] at h
        have hnone : (run.filter saysSomething).length = 0 := by omega
        rw [← ih (by omega), (fused_eq_nil_iff parent run).mpr (List.eq_nil_of_length_eq_zero hnone),
          fuse_nil_right, List.append_nil]

/-- Whether on the line of the tag or on lines of its own, a run has the same words. -/
theorem words_interior (o : Options) (depth : Nat) (tag : Tag) (run : List String) :
    words (interior o depth tag (run.map .text))
      = words (nodes o (depth + 1) tag.name (run.map .text)) := by
  unfold interior
  split
  next hempty =>
    rw [List.isEmpty_iff.mp hempty]
    rfl
  next =>
    split
    next written hwritten =>
      -- only a text that is alone is on the line of its tag
      obtain ⟨content, hone⟩ : ∃ content, run.map Node.text = [.text content] := by
        unfold inlineText? at hwritten
        split at hwritten
        next content hchildren => exact ⟨content, hchildren⟩
        next => exact absurd hwritten (by simp)
      rw [hone] at hwritten ⊢
      rw [words_inlineText hwritten, nodes, nodes, node, List.append_nil,
        words_append_blank (newline_blank o), words_text]
    next =>
      rw [words_append_blank (indentation_blank o depth), words_blank_append (newline_blank o)]

/-- The words of a run do not depend on how its surroundings are written. -/
theorem Hole.words_written (o : Options) (hole : Hole) (run : List String) :
    words (hole.written o (run.map .text))
      = words (nodes o hole.depth hole.parent (run.map .text)) := by
  unfold Hole.written
  split
  next outer tag => exact words_interior o outer.depth tag run
  next => rfl

end Texts

/-! ## §6. A text that is alone in its tag. -/

section OnlyText

variable {o : Options} {tag : Tag} {content : String} {cs : List Char}

/-- Blanks around a text are none of the lines that say something. -/
theorem saidLines_cons_of_blank {c : Char} (hc : isBlank c = true) (cs : List Char) :
    saidLines (c :: cs) = saidLines cs := by
  unfold saidLines
  by_cases hnewline : c = '\n'
  · rw [hnewline, lines_newline_cons]
    rfl
  · obtain ⟨l, ls, hlines⟩ := exists_lines_eq cs
    have htrim : trim (c :: l) = trim l := trim_blank_append (a := [c]) (by simpa using hc)
    rw [lines_cons_of_ne hnewline hlines, hlines, List.map_cons, List.map_cons, htrim]

/-- A blank at the end of a text says nothing. -/
theorem saidLines_concat_of_blank {c : Char} (hc : isBlank c = true) (cs : List Char) :
    saidLines (cs ++ [c]) = saidLines cs := by
  unfold saidLines
  obtain ⟨ls, l, hlines, hconcat⟩ := lines_concat cs c
  rw [hconcat, hlines]
  split
  next =>
    have hnil : trim [] = [] := rfl
    simp [hnil, List.filter_cons]
  next =>
    have htrim : trim (l ++ [c]) = trim l := trim_append_blank (by simpa using hc)
    rw [List.map_append, List.map_append, List.map_singleton, List.map_singleton, htrim]

/-- Blanks around a text say nothing. -/
theorem saidLines_around {left right : List Char} (hleft : ∀ c ∈ left, isBlank c = true)
    (hright : ∀ c ∈ right, isBlank c = true) (cs : List Char) :
    saidLines (left ++ cs ++ right) = saidLines cs := by
  have hfront : ∀ ds : List Char, saidLines (left ++ ds) = saidLines ds := by
    intro ds
    induction left with
    | nil => rfl
    | cons c left ih =>
      rw [List.cons_append, saidLines_cons_of_blank (hleft c List.mem_cons_self)]
      exact ih fun d hd => hleft d (List.mem_cons_of_mem c hd)
  rw [List.append_assoc, hfront]
  induction right using List.reverseRecOn with
  | nil => rw [List.append_nil]
  | append_singleton right c ih =>
    rw [← List.append_assoc, saidLines_concat_of_blank (hright c (by simp))]
    exact ih fun d hd => hright d (List.mem_append_left _ hd)

/-- A text is its trimmed form between blanks. -/
theorem exists_blanks_trim (cs : List Char) :
    ∃ left right, cs = left ++ trim cs ++ right ∧ (∀ c ∈ left, isBlank c = true)
      ∧ ∀ c ∈ right, isBlank c = true := by
  obtain ⟨right, hright, hsplit⟩ := exists_blank_trimRight (trimLeft cs)
  refine ⟨cs.takeWhile isBlank, right, ?_, fun c hc => List.mem_takeWhile_imp hc, hright⟩
  calc cs = cs.takeWhile isBlank ++ trimLeft cs := List.takeWhile_append_dropWhile.symm
    _ = cs.takeWhile isBlank ++ (trim cs ++ right) := by rw [hsplit]; rfl
    _ = cs.takeWhile isBlank ++ trim cs ++ right := (List.append_assoc _ _ _).symm

/-- A text that says nothing beyond one line flows as that line. -/
theorem flowed_of_one_line (parent : String) (h : '\n' ∉ trim content.toList) :
    flowed parent content = emit parent (trim content.toList) := by
  obtain ⟨left, right, hsplit, hleft, hright⟩ := exists_blanks_trim content.toList
  have hlines : saidLines content.toList = saidLines (trim content.toList) := by
    conv_lhs => rw [hsplit]
    exact saidLines_around hleft hright _
  unfold flowed
  rw [hlines]
  unfold saidLines
  rw [lines_of_not_mem h, List.map_singleton, trim_trim]
  cases htrim : trim content.toList with
  | nil => rfl
  | cons c cs => rw [List.filter_cons_of_pos (by rfl), List.filter_nil, List.intercalate_singleton]

/-- The text is escaped, short and of one line, and has blanks at an end. -/
def Straggles (tag : Tag) (content : String) : Prop :=
  isRaw tag.name = false ∧ '\n' ∉ content.toList ∧ (escape content.toList).length < inlineLimit
    ∧ trim content.toList ≠ content.toList

instance (tag : Tag) (content : String) : Decidable (Straggles tag content) :=
  inferInstanceAs (Decidable (_ ∧ _ ∧ _ ∧ _))

/-- **The text of a tag that has no other child** flows in minified markup, unless it
straggles: then its blanks stay. -/
theorem interior_only_text (ho : o.minify = true) (depth : Nat) (tag : Tag) (content : String) :
    interior o depth tag [.text content]
      = if Straggles tag content then escape content.toList else flowed tag.name content := by
  have hblock : nodes o (depth + 1) tag.name [.text content] = flowed tag.name content := by
    rw [nodes, nodes, node, newline_minified ho, text_minified ho, List.append_nil, List.append_nil]
  have hshort : inlineText? tag [.text content]
      = onOneLine? tag [.text content] := inlineText?_eq (List.cons_ne_nil _ _)
  unfold interior
  rw [if_neg (by simp), hshort, newline_minified ho, indentation_minified ho, List.nil_append,
    List.append_nil, hblock]
  unfold onOneLine?
  simp only
  by_cases hraw : isRaw tag.name = true
  · -- a raw text is trimmed before its length is taken
    have hnot : ¬ Straggles tag content := fun h => absurd h.1 (by simp [hraw])
    rw [if_neg hnot, if_pos hraw]
    split_ifs with hline
    · rw [flowed_of_one_line tag.name hline.2]
      simp [emit, hraw]
    · rfl
  · rw [Bool.not_eq_true] at hraw
    simp only [hraw, Bool.false_eq_true, if_false]
    by_cases hline : (escape content.toList).length < 80 ∧ '\n' ∉ escape content.toList
    · have hnewline : '\n' ∉ content.toList := fun h => hline.2 (newline_mem_escape h)
      rw [if_pos hline]
      split_ifs with hstraggles
      · rfl
      · -- the text has no blanks to lose
        have htrim : trim content.toList = content.toList := by
          by_contra hne
          exact hstraggles ⟨hraw, hnewline, hline.1, hne⟩
        rw [flowed_of_one_line tag.name (htrim.symm ▸ hnewline), htrim]
        simp [emit, hraw]
    · have hnot : ¬ Straggles tag content :=
        fun h => hline ⟨h.2.2.1, newline_not_mem_escape h.2.1⟩
      rw [if_neg hline, if_neg hnot]

/-- A text that straggles is its flowing form between blanks, and not that form. -/
theorem Straggles.exists_blanks (h : Straggles tag content) :
    (∃ left right, escape content.toList = left ++ flowed tag.name content ++ right
        ∧ (∀ c ∈ left, isBlank c = true) ∧ ∀ c ∈ right, isBlank c = true)
      ∧ escape content.toList ≠ flowed tag.name content := by
  obtain ⟨hraw, hnewline, -, hne⟩ := h
  have hflowed : flowed tag.name content = escape (trim content.toList) := by
    rw [flowed_of_one_line tag.name fun hmem => hnewline (trim_subset _ hmem)]
    simp [emit, hraw]
  rw [hflowed]
  constructor
  · obtain ⟨left, right, hsplit, hleft, hright⟩ := exists_blanks_trim content.toList
    refine ⟨left, right, ?_, hleft, hright⟩
    conv_lhs => rw [hsplit]
    rw [escape_append, escape_append, escape_of_blank hleft, escape_of_blank hright]
  · intro hsame
    have hdecode := congrArg decode hsame
    rw [decode_escape, decode_escape] at hdecode
    exact hne hdecode.symm

/-- Minified markup is always made, and it is final. -/
theorem generate_minified {g : Generator} {options : Option Options} (hlive : g.disposed = false)
    (hoptions : options.getD g.options = o) (ho : o.minify = true) (files : Files)
    (forest : List Node) :
    (g.generate files forest options).result = .ok (String.ofList (render o forest)) := by
  subst hoptions
  have hfits : overflow? g.room (options.getD g.options) forest = none := by
    unfold overflow?
    simp [ho]
  rw [generate_unformatted hlive (.inl ho), hfits]
  simp [plainText, ho, markup]

/-- **The text of a tag that has no other child, in minified markup.**  Wherever the tag
stands, its inside is the text with its lines trimmed, those that are blank left out,
and the others joined, exactly unless the text is escaped, short, of one line and has
blanks at an end: then these blanks are kept. -/
theorem minified_only_text {g : Generator} {options : Option Options} (hlive : g.disposed = false)
    (hoptions : options.getD g.options = o) (ho : o.minify = true) (files : Files) (outer : Hole)
    (tag : Tag) (content : String) :
    text o (outer.depth + 1) tag.name content = flowed tag.name content
      ∧ ∃ page, (g.generate files (outer.fill [.element tag [.text content]]) options).result
          = .ok page
        ∧ (page.toList = outer.ahead o ++ (opening tag ++ flowed tag.name content ++ closing tag)
            ++ outer.behind o ↔ ¬ Straggles tag content)
        ∧ (Straggles tag content → ∃ left right, (∀ c ∈ left ++ right, isBlank c = true)
            ∧ page.toList = outer.ahead o
              ++ (opening tag ++ (left ++ flowed tag.name content ++ right) ++ closing tag)
              ++ outer.behind o) := by
  refine ⟨text_minified ho _ _ _, _, generate_minified hlive hoptions ho files _, ?_⟩
  have hpage : render o (outer.fill [.element tag [.text content]])
      = outer.ahead o
        ++ (opening tag ++ interior o outer.depth tag [.text content] ++ closing tag)
        ++ outer.behind o := by
    rw [Hole.render_fill_node o outer (by simp), node_eq_interior, newline_minified ho,
      indentation_minified ho, List.append_nil, List.nil_append]
  rw [String.toList_ofList, hpage, interior_only_text ho]
  constructor
  · rw [List.append_left_inj, List.append_right_inj, List.append_left_inj, List.append_right_inj]
    split_ifs with hstraggles
    · exact iff_of_false hstraggles.exists_blanks.2 (not_not_intro hstraggles)
    · exact iff_of_true rfl hstraggles
  · intro hstraggles
    obtain ⟨left, right, hblanks, hleft, hright⟩ := hstraggles.exists_blanks.1
    rw [if_pos hstraggles, hblanks]
    exact ⟨left, right, List.forall_mem_append.mpr ⟨hleft, hright⟩, rfl⟩

/-- A tag in a list beside another text. -/
def besideText : Hole :=
  .inside (.top [.doctype "html"] []) ⟨"div", [], none, []⟩ [.text "so"] [.void ⟨"br", [], none, []⟩]

/-- A script of several lines with blanks around each of them. -/
def looseScript : String := " if (a < b)  \n\n\t c() "

theorem minified_only_text_script :
    ¬ Straggles ⟨"Script", [], none, []⟩ looseScript
      ∧ (plainGenerator.generate (Files.fresh [])
            (besideText.fill [.element ⟨"Script", [], none, []⟩ [.text looseScript]])
            (some { minify := true })).result
          = .ok "<!DOCTYPE html><div>so<Script>if (a < b)\nc()</Script><br /></div>" := by
  have hflows : ¬ Straggles ⟨"Script", [], none, []⟩ looseScript := by decide
  have hlive : plainGenerator.disposed = false := rfl
  have hoptions : (some { minify := true }).getD plainGenerator.options = { minify := true } := rfl
  obtain ⟨-, page, hpage, hiff, -⟩ := minified_only_text hlive hoptions rfl (Files.fresh []) besideText
    ⟨"Script", [], none, []⟩ looseScript
  have hchars := hiff.mpr hflows
  refine ⟨hflows, hpage.trans ?_⟩
  rw [← String.ofList_toList (s := page), hchars]
  rfl

/-- **Blanks of a quoted text are kept.**  The source can be read, and the inside of the
tag is not the text as it is written on lines of its own. -/
theorem quoted_text_straggles :
    Document.parse "p: \"  a  \"" = .ok [.element ⟨"p", [], none, []⟩ [.text "  a  "]]
      ∧ (plainGenerator.generate (Files.fresh []) [.element ⟨"p", [], none, []⟩ [.text "  a  "]]
          (some { minify := true })).result = .ok "<p>  a  </p>"
      ∧ "<p>  a  </p>".toList ≠ opening ⟨"p", [], none, []⟩
          ++ text { minify := true } 1 "p" "  a  " ++ closing ⟨"p", [], none, []⟩ := by
  refine ⟨by decide +kernel, by decide +kernel, by decide +kernel⟩

end OnlyText

/-! ## §7. Runs of texts. -/

/-- The part of a page between surroundings that have the words of these. -/
def StandsIn (part : List Char) (page : String) (front back : List Char) : Prop :=
  ∃ front' back', page.toList = front' ++ part ++ back'
    ∧ words front' = words front ∧ words back' = words back

/-- **The words of a run of texts.**  Wherever the run stands, the pretty page has the
words of each of its texts; in the minified page texts that meet are fused.  So the
words are the same exactly if at most one text of the run says something. -/
theorem run_words_same_iff {g : Generator} {files : Files} {tight loose : Options}
    (hlive : g.disposed = false) (htight : tight.minify = true) (hloose : loose.minify = false)
    (hole : Hole) {run : List String} (hrun : run ≠ [])
    (hplain : Unformatted g files (hole.fill (run.map .text)) loose)
    (hfits : overflow? g.room loose (hole.fill (run.map .text)) = none) :
    ∃ tightPage loosePage minified pretty,
      (g.generate files (hole.fill (run.map .text)) (some tight)).result = .ok tightPage
        ∧ (g.generate files (hole.fill (run.map .text)) (some loose)).result = .ok loosePage
        ∧ tightPage.toList = hole.front tight ++ minified ++ hole.back tight
        ∧ StandsIn pretty loosePage (hole.front loose) (hole.back loose)
        ∧ words pretty = run.flatMap (textWords hole.parent)
        ∧ words minified = (run.map (textWords hole.parent)).foldr fuse []
        ∧ (words minified = words pretty ↔ (run.filter saysSomething).length ≤ 1) := by
  have hne : run.map Node.text ≠ [] := by simpa using hrun
  have hoptions : (some tight).getD g.options = tight := rfl
  have htightPage := generate_minified hlive hoptions htight files (hole.fill (run.map .text))
  have hloosePage : (g.generate files (hole.fill (run.map .text)) (some loose)).result
      = .ok (tidyString (markup loose (hole.fill (run.map .text)))) := by
    rw [generate_unformatted hlive hplain, Option.getD_some, hfits]
    simp [plainText, hloose]
  -- tidying keeps the words, so the tidied page falls into the same parts
  have htidy : words (tidyString (markup loose (hole.fill (run.map .text)))).toList
      = words (hole.front loose ++ (hole.written loose (run.map .text) ++ hole.back loose)) := by
    rw [tidyString, String.toList_ofList, words_tidy, markup, String.toList_ofList,
      hole.render_fill loose hne, List.append_assoc]
  obtain ⟨front, rest, hcut, hfront, hrest⟩ := words_split htidy
  obtain ⟨pretty, back, rfl, hpretty, hback⟩ := words_split hrest
  rw [← List.append_assoc] at hcut
  have hapart : words pretty = run.flatMap (textWords hole.parent) := by
    rw [hpretty, hole.words_written, words_nodes_pretty hloose]
  have hfused : words (hole.written tight (run.map .text))
      = (run.map (textWords hole.parent)).foldr fuse [] := by
    rw [hole.words_written, (words_nodes_minified htight run).1]
  refine ⟨_, _, hole.written tight (run.map .text), pretty, htightPage, hloosePage, ?_,
    ⟨front, back, hcut, hfront, hback⟩, hapart, hfused, ?_⟩
  · rw [String.toList_ofList, hole.render_fill tight hne]
  · rw [hapart, hfused]
    exact fused_eq_flatMap_iff hole.parent run

/-- The inside of a paragraph, behind a line break. -/
def behindBreak : Hole :=
  .inside (.top [.doctype "html"] []) ⟨"p", [], none, []⟩ [.void ⟨"br", [], none, []⟩] []

theorem run_words_same_iff_blanks :
    (["", "one & two\nthree", "\u3000"].filter saysSomething).length ≤ 1
      ∧ ∃ tightPage loosePage minified pretty,
          (plainGenerator.generate (Files.fresh [])
              (behindBreak.fill (["", "one & two\nthree", "\u3000"].map .text))
              (some { minify := true })).result = .ok tightPage
            ∧ (plainGenerator.generate (Files.fresh [])
              (behindBreak.fill (["", "one & two\nthree", "\u3000"].map .text))
              (some { useFormatter := false })).result = .ok loosePage
            ∧ tightPage.toList
              = behindBreak.front { minify := true } ++ minified ++ behindBreak.back { minify := true }
            ∧ words minified = words pretty
            ∧ words pretty = ["one".toList, "&amp;".toList, "two".toList, "three".toList] := by
  have hone : (["", "one & two\nthree", "\u3000"].filter saysSomething).length ≤ 1 := by decide
  have hlive : plainGenerator.disposed = false := rfl
  have htight : ({ minify := true } : Options).minify = true := rfl
  have hloose : ({ useFormatter := false } : Options).minify = false := rfl
  have hplain : Unformatted plainGenerator (Files.fresh [])
      (behindBreak.fill (["", "one & two\nthree", "\u3000"].map .text)) { useFormatter := false } :=
    .inr (.inl rfl)
  obtain ⟨tightPage, loosePage, minified, pretty, htight, hloose, hcut, -, hpretty, -, hiff⟩ :=
    run_words_same_iff hlive htight hloose behindBreak (by decide) hplain (by decide)
  refine ⟨hone, tightPage, loosePage, minified, pretty, htight, hloose, hcut, hiff.mpr hone, ?_⟩
  rw [hpretty]
  decide

/-- **Texts of two lines are fused** by minifying, in a paragraph and in a script: the
words that the pretty page keeps apart are one. -/
theorem sibling_texts_fuse :
    Document.parse "p\n  | a\n  | b"
        = .ok (Hole.fill (.inside (.top [] []) ⟨"p", [], none, []⟩ [] []) (["a", "b"].map .text))
      ∧ Document.parse "script\n  | a()\n  | b()"
        = .ok (Hole.fill (.inside (.top [] []) ⟨"script", [], none, []⟩ [] [])
            (["a()", "b()"].map .text))
      ∧ plainText { minify := true } [.element ⟨"p", [], none, []⟩ [.text "a", .text "b"]]
        = "<p>" ++ "ab" ++ "</p>"
      ∧ plainText {} [.element ⟨"p", [], none, []⟩ [.text "a", .text "b"]]
        = "<p>" ++ "\n  a\n  b\n" ++ "</p>"
      ∧ plainText { minify := true } [.element ⟨"script", [], none, []⟩ [.text "a()", .text "b()"]]
        = "<script>" ++ "a()b()" ++ "</script>"
      ∧ plainText {} [.element ⟨"script", [], none, []⟩ [.text "a()", .text "b()"]]
        = "<script>" ++ "\n  a()\n  b()\n" ++ "</script>"
      ∧ words "ab".toList ≠ words "\n  a\n  b\n".toList
      ∧ words "a()b()".toList ≠ words "\n  a()\n  b()\n".toList := by
  decide +kernel

end Offside.Markup
