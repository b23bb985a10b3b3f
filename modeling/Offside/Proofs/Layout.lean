/-
  Offside.Proofs.Layout
  ─────────────────────
  **LAYOUT IS BLANKS.**

  `ink` is what a forest says once all blanks are gone, said without any
  options.  Every way of writing a forest has this ink:

    · `squeeze_node`  layout puts blanks around what a node says, and leaves
      blanks out, in pretty and in minified markup alike;
    · `squeeze_tidy`  tidying drops blanks only.

  So options never lose, add or reorder a character that is not blank.
-/
import Offside.Proofs.SafeMarkup

namespace Offside.Markup

open Text

/-! ## §1. The ink of a forest. -/

mutual

/-- What a node inside a tag of the name `parent` says, without blanks. -/
def inkOf (parent : String) : Node → List Char
  | .doctype name => squeeze (doctype name)
  | .text content => emit parent (squeeze content.toList)
  | .void tag => squeeze (voidTag tag)
  | .element tag children =>
    squeeze (opening tag) ++ inkOfAll tag.name children ++ squeeze (closing tag)

/-- What nodes say, one after the other. -/
def inkOfAll (parent : String) : List Node → List Char
  | [] => []
  | n :: ns => inkOf parent n ++ inkOfAll parent ns

end

/-- **What a forest says**, without blanks. -/
def ink (forest : List Node) : List Char := inkOfAll "" forest

/-! ## §2. Texts. -/

section Texts

variable {parent : String} {cs ds : List Char}

theorem squeeze_escapeChar (c : Char) :
    squeeze (escapeChar c) = if isBlank c then [] else escapeChar c := by
  split
  next hc => rw [escapeChar_of_isBlank hc, squeeze_of_blank (by simpa using hc)]
  next hc =>
    unfold squeeze
    rw [List.filter_eq_self]
    intro d hd
    rw [isBlank_of_mem_escapeChar (by simpa using hc) hd]
    rfl

/-- Escaping makes no blanks and changes none. -/
theorem squeeze_escape (cs : List Char) : squeeze (escape cs) = escape (squeeze cs) := by
  induction cs with
  | nil => rfl
  | cons c cs ih =>
    have hcons : escape (c :: cs) = escapeChar c ++ escape cs := List.flatMap_cons
    rw [hcons, squeeze_append, ih, squeeze_escapeChar]
    unfold squeeze
    by_cases hc : isBlank c = true
    · rw [if_pos hc, List.filter_cons_of_neg (by simp [hc])]
      rfl
    · rw [if_neg hc, List.filter_cons_of_pos (by simpa using hc)]
      exact List.flatMap_cons.symm

theorem squeeze_emit (parent : String) (cs : List Char) :
    squeeze (emit parent cs) = emit parent (squeeze cs) := by
  unfold emit
  split
  · rfl
  · exact squeeze_escape cs

theorem emit_append (parent : String) (a b : List Char) :
    emit parent (a ++ b) = emit parent a ++ emit parent b := by
  unfold emit
  split
  · rfl
  · exact List.flatMap_append

/-- Blanks around a text do not show. -/
theorem squeeze_around {pad : List Char} (hpad : ∀ c ∈ pad, isBlank c = true) (cs : List Char) :
    squeeze (pad ++ cs) = squeeze cs := by
  rw [squeeze_append, squeeze_of_blank hpad, List.nil_append]

theorem emit_nil (parent : String) : emit parent [] = [] := by
  unfold emit
  split <;> rfl

theorem squeeze_block {pad : List Char} (hpad : ∀ c ∈ pad, isBlank c = true)
    (pieces : List (List Char)) :
    squeeze (block parent pad pieces) = emit parent (squeeze pieces.flatten) := by
  induction pieces with
  | nil => exact (emit_nil parent).symm
  | cons piece rest ih =>
    rw [List.flatten_cons, squeeze_append, emit_append, ← ih, ← squeeze_trim piece]
    by_cases hblank : trim piece = []
    · -- a blank piece is not written, and has no ink either
      rw [block_cons_blank hblank, hblank]
      show _ = emit parent [] ++ _
      rw [emit_nil, List.nil_append]
    · have hseparator : squeeze (if rest.isEmpty then [] else ['\n']) = [] := by
        split <;> rfl
      rw [block_cons_inked hblank, squeeze_append, squeeze_append, hseparator, List.append_nil,
        squeeze_around hpad, squeeze_emit]

/-- The words of a text, however they are joined. -/
theorem squeeze_words {sep : List Char} (hsep : ∀ c ∈ sep, isBlank c = true) (cs : List Char) :
    squeeze (sep.intercalate (((lines cs).map trim).filter fun l => !l.isEmpty)) = squeeze cs := by
  have hwords : (((lines cs).map trim).filter fun l => !l.isEmpty).flatten
      = ((lines cs).map trim).flatten := List.flatten_filter_not_isEmpty
  rw [squeeze_intercalate hsep, hwords, squeeze_flatten_trim, squeeze_flatten_lines]

/-- **A text says its characters**, in any layout. -/
theorem squeeze_text (o : Options) (depth : Nat) (parent content : String) :
    squeeze (text o depth parent content) = emit parent (squeeze content.toList) := by
  unfold text
  simp only
  split
  next =>
    rw [squeeze_emit, squeeze_words]
    intro c hc
    split at hc
    · rw [List.mem_singleton.mp hc]
      exact isBlank_newline
    · rw [List.mem_singleton.mp hc]
      exact isBlank_space
  next =>
    rw [← squeeze_flatten_lines content.toList]
    split
    next piece hpiece =>
      rw [squeeze_around (indentation_blank o depth), squeeze_emit, squeeze_trim, hpiece]
      simp
    next => exact squeeze_block (indentation_blank o depth) _

/-- The text on the line of a tag is the text of its only child. -/
theorem squeeze_inlineText {tag : Tag} {children : List Node} {written : List Char}
    (h : inlineText? tag children = some written) :
    squeeze written = inkOfAll tag.name children := by
  unfold inlineText? at h
  split at h
  next content =>
    simp only [Option.ite_none_right_eq_some, Option.some.injEq] at h
    rw [← h.2, inkOfAll, inkOfAll, inkOf, List.append_nil]
    unfold emit
    split
    · exact squeeze_trim _
    · exact squeeze_escape _
  next => exact absurd h (by simp)

end Texts

/-! ## §3. Nodes. -/

mutual

/-- **A node says the same with all options**, at every depth. -/
theorem squeeze_node (o : Options) (depth : Nat) (parent : String) (n : Node) :
    squeeze (node o depth parent n) = inkOf parent n := by
  cases n with
  | doctype name => rw [node, inkOf]
  | text content => rw [node, inkOf, squeeze_text]
  | void tag => rw [node, inkOf, squeeze_around (indentation_blank o depth)]
  | element tag children =>
    rw [node, inkOf]
    -- no children, a text on the line of the tag, or lines of their own
    split
    next hempty =>
      rw [List.isEmpty_iff.mp hempty, inkOfAll, List.append_assoc,
        squeeze_around (indentation_blank o depth), squeeze_append, List.append_nil]
    next =>
      split
      next written hwritten =>
        rw [List.append_assoc, List.append_assoc, squeeze_around (indentation_blank o depth),
          squeeze_append, squeeze_append, squeeze_inlineText hwritten, List.append_assoc]
      next =>
        have hinner := squeeze_nodes o (depth + 1) tag.name children
        simp only [squeeze_append, squeeze_of_blank (indentation_blank o depth),
          squeeze_of_blank (newline_blank o), hinner, List.nil_append, List.append_nil]

theorem squeeze_nodes (o : Options) (depth : Nat) (parent : String) (ns : List Node) :
    squeeze (nodes o depth parent ns) = inkOfAll parent ns := by
  cases ns with
  | nil =>
    rw [nodes, inkOfAll]
    rfl
  | cons n ns =>
    rw [nodes, inkOfAll, squeeze_append, squeeze_append, squeeze_of_blank (newline_blank o),
      List.append_nil, squeeze_node, squeeze_nodes]

end

/-! ## §4. Tidying. -/

theorem squeeze_flatten_trimRight (ls : List (List Char)) :
    squeeze (ls.map trimRight).flatten = squeeze ls.flatten := by
  induction ls with
  | nil => rfl
  | cons l ls ih =>
    obtain ⟨b, hb, hsplit⟩ := exists_blank_trimRight l
    have hline : squeeze (trimRight l) = squeeze l := by
      conv_rhs => rw [hsplit, squeeze_append, squeeze_of_blank hb, List.append_nil]
    rw [List.map_cons, List.flatten_cons, List.flatten_cons, squeeze_append, squeeze_append,
      hline, ih]

/-- **Tidying drops blanks only.** -/
theorem squeeze_tidy (cs : List Char) : squeeze (tidy cs) = squeeze cs := by
  -- the lines that tidying drops are empty
  have hflatten : (tidyLines (lines cs)).flatten = ((lines cs).map trimRight).flatten := by
    have hfilter := (squash_dropEnds ((lines cs).map trimRight)).2
    have hflat := congrArg List.flatten hfilter
    rw [List.flatten_filter_not_isEmpty, List.flatten_filter_not_isEmpty] at hflat
    exact hflat
  calc squeeze (tidy cs)
      = squeeze (unlines (tidyLines (lines cs))) := by rw [tidy_eq_unlines]
    _ = squeeze (tidyLines (lines cs)).flatten :=
        squeeze_intercalate (by simp [isBlank_newline]) _
    _ = squeeze (lines cs).flatten := by rw [hflatten, squeeze_flatten_trimRight]
    _ = squeeze cs := squeeze_flatten_lines cs

/-! ## §5. Pages. -/

theorem squeeze_plainText (o : Options) (forest : List Node) :
    squeeze (plainText o forest).toList = ink forest := by
  unfold plainText
  split
  next =>
    rw [markup, String.toList_ofList]
    exact squeeze_nodes o 0 "" forest
  next =>
    rw [tidyString, markup, String.toList_ofList, String.toList_ofList, squeeze_tidy]
    exact squeeze_nodes o 0 "" forest

/-- No formatter has a say in the page of a forest: none is asked, or it
refuses. -/
def Unformatted (g : Generator) (files : Files) (forest : List Node) (o : Options) : Prop :=
  o.minify = true ∨ o.useFormatter = false
    ∨ ∃ reason, (g.formatter.format files (markup o forest)).result = .error (.error reason)

/-- What a generator makes where no formatter has a say. -/
theorem generate_unformatted {g : Generator} {files : Files} {forest : List Node}
    {options : Option Options} (hlive : g.disposed = false)
    (hplain : Unformatted g files forest (options.getD g.options)) :
    (g.generate files forest options).result
      = match overflow? g.room (options.getD g.options) forest with
        | some reason => .error (.indentation reason)
        | none => .ok (plainText (options.getD g.options) forest) := by
  unfold Generator.generate
  cases hover : overflow? g.room (options.getD g.options) forest with
  | some reason => simp [hlive, hover]
  | none =>
    by_cases hasked :
        ((options.getD g.options).minify || !(options.getD g.options).useFormatter) = true
    · simp [hlive, hover, hasked]
    · -- the formatter is asked, so it must be the one that refuses
      obtain ⟨hpretty, huse⟩ : (options.getD g.options).minify = false
          ∧ (options.getD g.options).useFormatter = true := by simpa using hasked
      rcases hplain with hminify | hunused | ⟨reason, hrefused⟩
      · rw [hpretty] at hminify
        exact absurd hminify (by decide)
      · rw [huse] at hunused
        exact absurd hunused (by decide)
      · simp [hlive, hover, hpretty, huse, settled, hrefused, plainText]

/-- A page of a forest has the ink of the forest. -/
theorem squeeze_of_generate {g : Generator} {files : Files} {forest : List Node}
    {options : Option Options} {page : String} (hlive : g.disposed = false)
    (hplain : Unformatted g files forest (options.getD g.options))
    (hpage : (g.generate files forest options).result = .ok page) :
    squeeze page.toList = ink forest := by
  rw [generate_unformatted hlive hplain] at hpage
  split at hpage
  next => exact absurd hpage (by simp)
  next =>
    injection hpage with hpage
    rw [← hpage, squeeze_plainText]

/-- **Options change blanks only.**  Where no formatter has a say, a page is made
unless it is indented too far, and any two pages of a forest are the same once
their blanks are gone. -/
theorem options_change_blanks_only (forest : List Node) {g g' : Generator} {files files' : Files}
    {options options' : Option Options} (hlive : g.disposed = false) (hlive' : g'.disposed = false)
    (hplain : Unformatted g files forest (options.getD g.options))
    (hplain' : Unformatted g' files' forest (options'.getD g'.options)) :
    (overflow? g.room (options.getD g.options) forest = none →
        ∃ page, (g.generate files forest options).result = .ok page)
      ∧ ∀ page page', (g.generate files forest options).result = .ok page →
          (g'.generate files' forest options').result = .ok page' →
          squeeze page.toList = squeeze page'.toList := by
  constructor
  · intro hfits
    rw [generate_unformatted hlive hplain, hfits]
    exact ⟨_, rfl⟩
  · intro page page' hpage hpage'
    rw [squeeze_of_generate hlive hplain hpage, squeeze_of_generate hlive' hplain' hpage']

/-- A script with blank lines, a text of two lines beside a void tag, and texts
that are blank or end in blanks of other kinds. -/
def straggling : List Node :=
  [.element ⟨"Script", [], none, []⟩ [.text " a\n\n\n\u00a0 if (b < c) "],
    .element ⟨"p", ["x", "y"], none, [⟨"title", .text " \"q\" "⟩]⟩
      [.text "one &\n  two\u2003", .void ⟨"br", [], none, []⟩, .text "\n\u3000\n"],
    .element ⟨"b", [], none, []⟩ [.text " in "], .doctype "html\n"]

/-- A generator whose formatter always refuses. -/
def refusing : Generator :=
  { options := { indentStyle := .tabs }
    formatter := ⟨fun _ _ => ⟨[], .error (.error .noCommand), none⟩⟩ }

/-- The minified page. -/
def tightPage : String :=
  "<Script>a\nif (b < c)</Script><p class=\"x y\" title=\" &quot;q&quot; \">one &amp; two<br /></p>"
    ++ "<b> in </b><!DOCTYPE html\n>"

/-- The page indented by tabs and tidied. -/
def loosePage : String :=
  "<Script>\n\ta\n\tif (b < c)\n</Script>\n<p class=\"x y\" title=\" &quot;q&quot; \">\n\tone &amp;\n"
    ++ "\ttwo\n\t<br />\n\n</p>\n<b> in </b>\n<!DOCTYPE html\n>"

theorem options_change_blanks_only_straggling :
    (plainGenerator.generate (Files.fresh []) straggling (some { minify := true })).result
        = .ok tightPage
      ∧ (refusing.generate (Files.fresh []) straggling none).result = .ok loosePage
      ∧ squeeze tightPage.toList = squeeze loosePage.toList := by
  have hlive : plainGenerator.disposed = false := rfl
  have hlive' : refusing.disposed = false := rfl
  have hplain : Unformatted plainGenerator (Files.fresh []) straggling
      ((some { minify := true }).getD plainGenerator.options) := .inl rfl
  have hplain' : Unformatted refusing (Files.fresh []) straggling (none.getD refusing.options) :=
    .inr (.inr ⟨.noCommand, rfl⟩)
  have htight : (plainGenerator.generate (Files.fresh []) straggling (some { minify := true })).result
      = .ok tightPage := by decide +kernel
  have hloose : (refusing.generate (Files.fresh []) straggling none).result = .ok loosePage := by
    decide +kernel
  exact ⟨htight, hloose,
    (options_change_blanks_only straggling hlive hlive' hplain hplain').2 _ _ htight hloose⟩

end Offside.Markup
