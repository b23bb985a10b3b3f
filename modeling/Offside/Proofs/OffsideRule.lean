/-
  Offside.Proofs.OffsideRule
  ──────────────────────────
  **THE OFFSIDE RULE.**

  The page reader has no stack of indentations: a line hands the deeper lines
  below it to a recursive call and goes on behind them.  This file says what
  comes out, by looking at the rows of the source from above:

      covers     — every line after `j` up to `i` is deeper than `j`
      swallowed  — a line is text of a block that an earlier line opened
      parent?    — the nearest earlier tag with an inside that covers a line

  A `Sprout` is a line with the lines that nest in it.  `forest_sprouts` says
  that the nodes of a level grow from sprouts which are linked exactly as
  `parent?` says, in the order of the lines, and which use every line once.
-/
import Offside.Proofs.Scan

namespace Offside.Nesting

open Text Document

/-! ## §1. What a row is by itself. -/

/-- The kind of a row. -/
def kind? (row : Row) : Option LineKind := LineKind.ofText? row.text

/-- The head of a tag row. -/
def head? (row : Row) : Option Head :=
  if kind? row = some .tag then (Head.read row.text).toOption else none

/-- A bare `|`. -/
def isBarePipe (row : Row) : Bool :=
  kind? row == some .pipe && (trim (row.text.drop 1)).isEmpty

/-- A bare `|`, or a tag that has a bare `|` for its content. -/
def opensBlock (row : Row) : Bool :=
  isBarePipe row || (head? row).any (·.tail == .block)

/-- A tag that is not void. -/
def hasInside (row : Row) : Bool := (head? row).any (!·.tag.isVoid)

/-! ## §2. How rows lie below one another. -/

/-- Whether the row with the number `i` is there and has a property. -/
def at? (rs : List Row) (i : Nat) (p : Row → Bool) : Bool := rs[i]?.any p

/-- How deep the row with the number `i` is indented. -/
def indentOf (rs : List Row) (i : Nat) : Nat := (rs[i]?.map Row.indent).getD 0

/-- Whether every row after `j` up to and including `i` is indented deeper
than `j`. -/
def covers (rs : List Row) (j i : Nat) : Bool :=
  decide (j < i) && decide (i < rs.length)
    && (List.range' (j + 1) (i - j)).all fun k => indentOf rs j < indentOf rs k

/-- Whether a row is text of a block: some earlier row that is not itself text
of a block opens one and covers it. -/
def swallowed (rs : List Row) (i : Nat) : Bool :=
  (List.finRange i).any fun j =>
    !swallowed rs j && at? rs j opensBlock && covers rs j i
termination_by i
decreasing_by exact j.isLt

/-- The nearest number below a bound with a property. -/
def nearest (p : Nat → Bool) : Nat → Option Nat
  | 0 => none
  | n + 1 => if p n then some n else nearest p n

/-- Whether the row `i` may nest in the row `j`. -/
def holds (rs : List Row) (i j : Nat) : Bool :=
  !swallowed rs j && at? rs j hasInside && covers rs j i

/-- The row in which the row `i` nests, if there is one. -/
def parent? (rs : List Row) (i : Nat) : Option Nat := nearest (holds rs i) i

/-- The numbers of the rows that are not text of a block. -/
def kept (rs : List Row) : List Nat :=
  (List.range rs.length).filter fun i => !swallowed rs i

/-- The numbers of the rows that a row covers. -/
def covered (rs : List Row) (j : Nat) : List Nat :=
  (List.range rs.length).filter (covers rs j)

/-- The text of the block that a row opens: the rows it covers, one below the
other. -/
def blockText (rs : List Row) (j : Nat) : String :=
  String.ofList (unlines ((covered rs j).filterMap fun i => rs[i]?.map Row.text))

/-! ## §3. Sprouts. -/

/-- A row and the rows that nest in it. -/
inductive Sprout where
  | mk (row : Nat) (inside : List Sprout)

/-- The text in front of the children of a tag row: the text on the line
itself, or the block below it. -/
def lead (rs : List Row) (j : Nat) : Tail → List Node
  | .none => []
  | .inline content => leading content
  | .block => if (covered rs j).isEmpty then [] else [.text (blockText rs j)]

/-- The node of the row `j` with the nodes that nest in it. -/
def rowNode (rs : List Row) (j : Nat) (row : Row) (inside : List Node) : Node :=
  match kind? row, head? row with
  | some .doctype, _ =>
    .doctype (String.ofList (trim (row.text.drop doctypeMark.length)))
  | some .pipe, _ =>
    if isBarePipe row then .text (blockText rs j)
    else .text (String.ofList (unquote (trim (row.text.drop 1))))
  | some .tag, some head =>
    if head.tag.isVoid then .void head.tag
    else .element head.tag (lead rs j head.tail ++ inside)
  | _, _ => .text (String.ofList row.text)

mutual

/-- The node that grows from a sprout. -/
def Sprout.node (rs : List Row) : Sprout → Node
  | .mk j inside =>
    match rs[j]? with
    | none => .text ""
    | some row => rowNode rs j row (Sprout.nodes rs inside)

/-- The nodes that grow from sprouts. -/
def Sprout.nodes (rs : List Row) : List Sprout → List Node
  | [] => []
  | s :: ss => s.node rs :: Sprout.nodes rs ss

end

mutual

/-- The rows of a sprout, each with the row it nests in, from the top down. -/
def Sprout.links (above : Option Nat) : Sprout → List (Nat × Option Nat)
  | .mk j inside => (j, above) :: Sprout.allLinks (some j) inside

/-- The rows of sprouts, each with the row it nests in, from the top down. -/
def Sprout.allLinks (above : Option Nat) : List Sprout → List (Nat × Option Nat)
  | [] => []
  | s :: ss => s.links above ++ Sprout.allLinks above ss

end

mutual

/-- The rows that a sprout uses up, the text of blocks among them, from the
top down. -/
def Sprout.span (rs : List Row) : Sprout → List Nat
  | .mk j inside =>
    j :: (if at? rs j opensBlock then covered rs j else []) ++ Sprout.allSpan rs inside

/-- The rows that sprouts use up. -/
def Sprout.allSpan (rs : List Row) : List Sprout → List Nat
  | [] => []
  | s :: ss => s.span rs ++ Sprout.allSpan rs ss

end

/-! ## §4. Laws of covering. -/

/-- A row covers those behind it up to the first that is not indented further. -/
theorem covers_eq_true_iff {rs : List Row} {j i : Nat} :
    covers rs j i = true ↔
      j < i ∧ i < rs.length ∧ ∀ k, j < k → k ≤ i → indentOf rs j < indentOf rs k := by
  unfold covers
  simp only [Bool.and_eq_true, decide_eq_true_eq, List.all_eq_true, List.mem_range'_1]
  constructor
  · rintro ⟨⟨hji, hi⟩, h⟩
    exact ⟨hji, hi, fun k hjk hki => h k ⟨by omega, by omega⟩⟩
  · rintro ⟨hji, hi, h⟩
    exact ⟨⟨hji, hi⟩, fun k hk => h k (by omega) (by omega)⟩

/-- A row is swallowed exactly when some earlier row that is not swallowed
opens a block and covers it. -/
theorem swallowed_eq_true_iff {rs : List Row} {i : Nat} :
    swallowed rs i = true ↔
      ∃ j, j < i ∧ swallowed rs j = false ∧ at? rs j opensBlock = true
        ∧ covers rs j i = true := by
  rw [swallowed]
  simp only [List.any_eq_true, List.mem_finRange, true_and, Bool.and_eq_true,
    Bool.not_eq_true']
  constructor
  · rintro ⟨j, ⟨hj, ho⟩, hc⟩
    exact ⟨j, j.isLt, hj, ho, hc⟩
  · rintro ⟨j, hji, hj, ho, hc⟩
    exact ⟨⟨j, hji⟩, ⟨hj, ho⟩, hc⟩

/-- Numbers without the property do not matter for the nearest one. -/
theorem nearest_skip {p : Nat → Bool} {a c : Nat} (hac : a ≤ c)
    (h : ∀ j, a ≤ j → j < c → p j = false) : nearest p c = nearest p a := by
  induction c, hac using Nat.le_induction with
  | base => rfl
  | succ c hac ih =>
    have hc : p c = false := h c hac (Nat.lt_succ_self c)
    rw [nearest, hc, if_neg (by simp)]
    exact ih fun j hj hjc => h j hj (by omega)

/-- The numbers of an interval, picked out of all of them. -/
theorem filter_range_eq {p : Nat → Bool} {a m n : Nat} (hn : a + m < n)
    (h : ∀ i, p i = true ↔ a < i ∧ i ≤ a + m) :
    (List.range n).filter p = List.range' (a + 1) m := by
  -- below the interval, the interval itself, and above it
  have hsplit : List.range n
      = List.range' 0 (a + 1) ++ List.range' (a + 1) m
          ++ List.range' (a + 1 + m) (n - (a + 1 + m)) := by
    rw [List.range_eq_range', List.append_assoc, List.range'_append_1]
    have hlow := List.range'_append_1 (s := 0) (m := a + 1) (n := m + (n - (a + 1 + m)))
    rw [Nat.zero_add] at hlow
    rw [hlow]
    congr 1
    omega
  have hlow : (List.range' 0 (a + 1)).filter p = [] := by
    rw [List.filter_eq_nil_iff]
    intro i hi
    rw [List.mem_range'_1] at hi
    rw [h i]
    omega
  have hmid : (List.range' (a + 1) m).filter p = List.range' (a + 1) m := by
    rw [List.filter_eq_self]
    intro i hi
    rw [List.mem_range'_1] at hi
    rw [h i]
    omega
  have hhigh : (List.range' (a + 1 + m) (n - (a + 1 + m))).filter p = [] := by
    rw [List.filter_eq_nil_iff]
    intro i hi
    rw [List.mem_range'_1] at hi
    rw [h i]
    omega
  rw [hsplit, List.filter_append, List.filter_append, hlow, hmid, hhigh,
    List.nil_append, List.append_nil]

/-! ## §5. The role of a line and its row. -/

/-- What the role of a line says about its row: whether the row opens a block
or has an inside, and which node it makes. -/
def Fits (row : Row) : Role → Prop
  | .leaf node =>
    opensBlock row = false ∧ hasInside row = false ∧ ∀ rs j, rowNode rs j row [] = node
  | .textBlock =>
    opensBlock row = true ∧ hasInside row = false
      ∧ ∀ rs j, rowNode rs j row [] = .text (blockText rs j)
  | .verbatim tag =>
    opensBlock row = true
      ∧ ∀ rs j, rowNode rs j row [] = .element tag (lead rs j .block)
  | .parent tag front =>
    opensBlock row = false ∧ hasInside row = true
      ∧ ∀ rs j inside, rowNode rs j row inside = .element tag (front.reverse ++ inside)

variable {line : Line} {depth : Nat}

/-- A row that is not a tag has no head. -/
theorem head?_of_kind {row : Row} {k : LineKind} (hk : kind? row = some k)
    (hne : k ≠ .tag) : head? row = none := by
  simp [head?, hk, hne]

/-- The head of a tag is what is read of it. -/
theorem head?_of_read {row : Row} {head : Head} (hk : kind? row = some .tag)
    (hread : Head.read row.text = .ok head) : head? row = some head := by
  simp [head?, hk, hread, Except.toOption]

/-- A row that is neither a tag nor a pipe takes no other row. -/
theorem inert_of_kind {row : Row} {k : LineKind} (hk : kind? row = some k) (htag : k ≠ .tag)
    (hpipe : k ≠ .pipe) : opensBlock row = false ∧ hasInside row = false := by
  have hhead := head?_of_kind hk htag
  exact ⟨by simp [opensBlock, isBarePipe, hk, hhead, hpipe], by simp [hasInside, hhead]⟩

/-- A text fits the role of its line. -/
theorem fits_pipe {row : Row} (hk : kind? row = some .pipe) : Fits row (pipeRole row.text) := by
  have hhead := head?_of_kind hk (by decide)
  unfold pipeRole
  by_cases hbare : (trim (row.text.drop 1)).isEmpty
  · rw [if_pos hbare]
    have hp : isBarePipe row = true := by
      rw [isBarePipe, hk, hbare]
      rfl
    refine ⟨by simp [opensBlock, hp], by simp [hasInside, hhead], ?_⟩
    intro rs j
    simp [rowNode, hk, hp]
  · rw [if_neg hbare]
    have hp : isBarePipe row = false := by
      rw [isBarePipe, hk, Bool.eq_false_iff.mpr hbare]
      rfl
    refine ⟨by simp [opensBlock, hp, hhead], by simp [hasInside, hhead], ?_⟩
    intro rs j
    simp [rowNode, hk, hp]

theorem reverse_leading (content : String) : (leading content).reverse = leading content := by
  unfold leading
  split <;> rfl

/-- A tag fits the role of its line. -/
theorem fits_head {head : Head} {r : Role} (hk : kind? line.row = some .tag)
    (hread : Head.read line.text.toList = .ok head) (h : headRole line head = .ok r) :
    Fits line.row r := by
  have hhead : head? line.row = some head := head?_of_read hk hread
  have hpipe : isBarePipe line.row = false := by simp [isBarePipe, hk]
  have hopens : opensBlock line.row = (head.tail == .block) := by
    simp [opensBlock, hpipe, hhead]
  have hinside : hasInside line.row = !head.tag.isVoid := by
    simp [hasInside, hhead]
  unfold headRole at h
  cases hv : head.tag.isVoid with
  | true =>
    -- a void tag is refused unless nothing stands behind its head
    rw [hv, if_pos rfl] at h
    cases ht : head.tail with
    | none =>
      simp only [ht] at h
      injection h with h
      subst h
      refine ⟨by simp [hopens, ht], by simp [hinside, hv], ?_⟩
      intro rs j
      simp [rowNode, hk, hhead, hv]
    | block => simp [ht] at h
    | inline content => simp [ht] at h
  | false =>
    rw [hv, if_neg (by simp)] at h
    cases ht : head.tail with
    | none =>
      simp only [ht] at h
      injection h with h
      subst h
      refine ⟨by simp [hopens, ht], by simp [hinside, hv], ?_⟩
      intro rs j inside
      simp [rowNode, hk, hhead, hv, ht, lead]
    | block =>
      simp only [ht] at h
      injection h with h
      subst h
      refine ⟨by simp [hopens, ht], ?_⟩
      intro rs j
      simp [rowNode, hk, hhead, hv, ht]
    | inline content =>
      simp only [ht] at h
      injection h with h
      subst h
      refine ⟨by simp [hopens, ht], by simp [hinside, hv], ?_⟩
      intro rs j inside
      simp [rowNode, hk, hhead, hv, ht, lead, reverse_leading]

/-- **Every role fits its row.** -/
theorem role_fits {r : Role} (hkind : LineKind.ofText? line.text.toList = some line.kind)
    (h : role depth line = .ok r) : Fits line.row r := by
  have hk : kind? line.row = some line.kind := hkind
  unfold role at h
  cases hline : line.kind with
  | doctype =>
    rw [hline] at hk
    simp only [hline] at h
    split at h
    next => exact absurd h (by simp)
    next =>
      injection h with h
      subst h
      obtain ⟨hopens, hinside⟩ := inert_of_kind hk (by decide) (by decide)
      refine ⟨hopens, hinside, ?_⟩
      intro rs j
      simp [rowNode, hk]
  | pipe =>
    rw [hline] at hk
    simp only [hline] at h
    injection h with h
    subst h
    exact fits_pipe hk
  | tag =>
    rw [hline] at hk
    simp only [hline, tagRole] at h
    split at h
    next => exact absurd h (by simp)
    next =>
      cases hread : Head.read line.text.toList with
      | error fault => simp [hread] at h
      | ok head =>
        simp only [hread] at h
        exact fits_head hk hread h
  | text =>
    rw [hline] at hk
    simp only [hline] at h
    injection h with h
    subst h
    obtain ⟨hopens, hinside⟩ := inert_of_kind hk (by decide) (by decide)
    refine ⟨hopens, hinside, ?_⟩
    intro rs j
    simp [rowNode, hk]

/-! ## §6. The rows of one level. -/

/-- The lines `seg`, which stand between the rows `pre` and `post`, all belong
to the level below the row `above`. -/
structure Level (rs : List Row) (above : Option Nat) (pre : List Row) (seg : List Line)
    (post : List Row) : Prop where
  split : rs = pre ++ seg.map Line.row ++ post
  kinds : ∀ line ∈ seg, LineKind.ofText? line.text.toList = some line.kind
  /-- The row behind the level is no deeper than any line of it. -/
  ends : ∀ row ∈ post.head?, ∀ line ∈ seg, row.indent ≤ line.indent
  /-- No block that was opened before the level reaches into it. -/
  free : ∀ i, pre.length ≤ i → i < pre.length + seg.length → ∀ j, j < pre.length →
    swallowed rs j = false → at? rs j opensBlock = true → covers rs j i = false
  /-- Of the rows before the level, `above` is the nearest to nest in. -/
  under : ∀ i, pre.length ≤ i → i < pre.length + seg.length →
    nearest (holds rs i) pre.length = above

theorem below_append_beyond (line : Line) (rest : List Line) :
    below line rest ++ beyond line rest = rest :=
  List.takeWhile_append_dropWhile

theorem length_cons_below_beyond (line : Line) (rest : List Line) :
    (line :: rest).length = (1 + (below line rest).length) + (beyond line rest).length := by
  rw [List.length_cons, Nat.add_assoc, ← List.length_append, below_append_beyond, Nat.add_comm]

theorem length_upTo_beyond (pre : List Row) (line : Line) (rest : List Line) :
    (pre ++ [line.row] ++ (below line rest).map Line.row).length
      = pre.length + (1 + (below line rest).length) := by
  rw [List.length_append, List.length_append, List.length_map, List.length_singleton,
    Nat.add_assoc]

/-- Reading rows by their numbers gives the rows. -/
theorem filterMap_range' {β : Type} (f : Row → β) {rs : List Row} (xs : List Row) :
    ∀ (pre post : List Row), rs = pre ++ xs ++ post →
      (List.range' pre.length xs.length).filterMap (fun i => rs[i]?.map f) = xs.map f := by
  induction xs with
  | nil => intro pre post _; rfl
  | cons x xs ih =>
    intro pre post hrs
    have hx : rs[pre.length]?.map f = some (f x) := by
      rw [hrs]
      simp
    have hlen : (pre ++ [x]).length = pre.length + 1 := by simp
    have hxs := ih (pre ++ [x]) post (by simpa using hrs)
    rw [hlen] at hxs
    rw [List.length_cons, List.range'_succ, List.filterMap_cons, hx, hxs]
    rfl

namespace Level

variable {rs pre post : List Row} {above : Option Nat} {rest : List Line}

/-- The rows of a level, split at the end of what is below its first line. -/
theorem split_below (level : Level rs above pre (line :: rest) post) :
    rs = (pre ++ [line.row]) ++ (below line rest).map Line.row
          ++ ((beyond line rest).map Line.row ++ post) := by
  rw [level.split]
  conv_lhs => rw [← below_append_beyond line rest]
  simp

theorem length_eq (level : Level rs above pre (line :: rest) post) :
    rs.length = pre.length + 1 + (below line rest).length
      + (beyond line rest).length + post.length := by
  rw [level.split_below]
  simp only [List.length_append, List.length_map, List.length_singleton]
  omega

/-- The first line of a level stands behind the rows before it. -/
theorem getElem?_head (level : Level rs above pre (line :: rest) post) :
    rs[pre.length]? = some line.row := by
  rw [level.split]
  simp

theorem at?_head (level : Level rs above pre (line :: rest) post) (p : Row → Bool) :
    at? rs pre.length p = p line.row := by
  simp [at?, level.getElem?_head]

theorem indentOf_head (level : Level rs above pre (line :: rest) post) :
    indentOf rs pre.length = line.indent := by
  simp [indentOf, level.getElem?_head]

/-- The rows of the run below a line are deeper than the line. -/
theorem indentOf_below (level : Level rs above pre (line :: rest) post) {k : Nat}
    (hlow : pre.length < k) (hhigh : k ≤ pre.length + (below line rest).length) :
    line.indent < indentOf rs k := by
  -- the row `k` is the line number `m` of the run
  obtain ⟨m, rfl⟩ := Nat.exists_eq_add_of_lt hlow
  have hm : m < (below line rest).length := by omega
  have hget : rs[pre.length + m + 1]? = (below line rest)[m]?.map Line.row := by
    rw [level.split_below, List.getElem?_append_left (by simp; omega),
      List.getElem?_append_right (by simp)]
    simp only [List.length_append, List.length_singleton, List.getElem?_map]
    congr 2
    omega
  have hmem : (below line rest)[m] ∈ below line rest := List.getElem_mem hm
  have hdeep := List.mem_takeWhile_imp hmem
  rw [List.getElem?_eq_getElem hm] at hget
  simpa [indentOf, hget] using hdeep

/-- The row behind that run is not deeper than the line. -/
theorem indentOf_beyond (level : Level rs above pre (line :: rest) post) :
    indentOf rs (pre.length + (below line rest).length + 1) ≤ line.indent := by
  have hget : rs[pre.length + (below line rest).length + 1]?
      = ((beyond line rest).map Line.row ++ post).head? := by
    rw [level.split_below, List.getElem?_append_right (by simp; omega), List.head?_eq_getElem?]
    congr 1
    simp only [List.length_append, List.length_singleton, List.length_map]
    omega
  have hstop : Stops (fun l : Line => decide (line.indent < l.indent)) (beyond line rest) :=
    stops_dropWhile rest
  unfold indentOf
  rw [hget]
  cases hb : beyond line rest with
  | nil =>
    -- the level is over, and the row behind it is no deeper than its lines
    cases post with
    | nil => simp
    | cons row post =>
      have hrow := level.ends row (by simp) line List.mem_cons_self
      simpa using hrow
  | cons l ls =>
    rw [hb, stops_cons] at hstop
    simpa using hstop

/-- A line covers the run of deeper lines below it and no more. -/
theorem covers_head_iff (level : Level rs above pre (line :: rest) post) {i : Nat} :
    covers rs pre.length i = true ↔
      pre.length < i ∧ i ≤ pre.length + (below line rest).length := by
  have hlen := level.length_eq
  rw [covers_eq_true_iff, level.indentOf_head]
  constructor
  · rintro ⟨hlow, hi, hdeep⟩
    refine ⟨hlow, ?_⟩
    by_contra hhigh
    -- a row further down would need the row behind the run to be deeper too
    have hstop := level.indentOf_beyond
    have hdeep' := hdeep (pre.length + (below line rest).length + 1) (by omega) (by omega)
    omega
  · rintro ⟨hlow, hhigh⟩
    exact ⟨hlow, by omega, fun k hk hki => level.indentOf_below hk (by omega)⟩

/-- Nothing from a line on to the end of the run below it covers a row behind
that run. -/
theorem covers_beyond (level : Level rs above pre (line :: rest) post) {j i : Nat}
    (hlow : pre.length ≤ j) (hhigh : j ≤ pre.length + (below line rest).length)
    (hi : pre.length + (below line rest).length < i) : covers rs j i = false := by
  rw [Bool.eq_false_iff]
  intro hcov
  by_cases hj : j = pre.length
  · subst hj
    have := (level.covers_head_iff.mp hcov).2
    omega
  · -- `j` is deeper than the line, and the row behind the run is not
    obtain ⟨_, hlen, hdeep⟩ := covers_eq_true_iff.mp hcov
    have h1 := hdeep (pre.length + (below line rest).length + 1) (by omega) (by omega)
    have h2 := level.indentOf_beyond
    have h3 := level.indentOf_below (k := j) (by omega) hhigh
    omega

/-- The first line of a level is not text of a block. -/
theorem head_kept (level : Level rs above pre (line :: rest) post) :
    swallowed rs pre.length = false := by
  rw [Bool.eq_false_iff]
  intro h
  obtain ⟨j, hj, hkept, hopens, hcov⟩ := swallowed_eq_true_iff.mp h
  rw [level.free pre.length (Nat.le_refl _) (by simp) j hj hkept hopens] at hcov
  exact absurd hcov (by decide)

/-- It nests where the level does. -/
theorem head_parent (level : Level rs above pre (line :: rest) post) :
    parent? rs pre.length = above :=
  level.under pre.length (Nat.le_refl _) (by simp)

/-- The first line of a level covers the lines below it. -/
theorem covered_head (level : Level rs above pre (line :: rest) post) :
    covered rs pre.length = List.range' (pre.length + 1) (below line rest).length := by
  have hlen := level.length_eq
  exact filter_range_eq (by omega) fun i => level.covers_head_iff

/-- The text of a block is that of the lines below it. -/
theorem blockText_head (level : Level rs above pre (line :: rest) post) :
    blockText rs pre.length = Document.blockText (below line rest) := by
  have hread := filterMap_range' Row.text _ _ _ level.split_below
  rw [List.length_append, List.length_singleton, List.length_map, List.map_map] at hread
  unfold blockText Document.blockText
  rw [level.covered_head, hread]
  rfl

/-- A line that opens a block swallows the run below it. -/
theorem swallowed_below (level : Level rs above pre (line :: rest) post)
    (hopens : opensBlock line.row = true) {i : Nat} (hlow : pre.length < i)
    (hhigh : i ≤ pre.length + (below line rest).length) : swallowed rs i = true :=
  swallowed_eq_true_iff.mpr ⟨pre.length, hlow, level.head_kept,
    (level.at?_head opensBlock).trans hopens, level.covers_head_iff.mpr ⟨hlow, hhigh⟩⟩

/-! ### From one level to the next -/

/-- A line that opens no block leaves the rest of the level free. -/
theorem free_behind (level : Level rs above pre (line :: rest) post)
    (hopens : opensBlock line.row = false) {i j : Nat} (hlow : pre.length < i)
    (hhigh : i ≤ pre.length + rest.length) (hj : j < pre.length + 1)
    (hkept : swallowed rs j = false) (hj' : at? rs j opensBlock = true) :
    covers rs j i = false := by
  by_cases hjp : j = pre.length
  · subst hjp
    rw [level.at?_head, hopens] at hj'
    exact absurd hj' (by decide)
  · exact level.free i (by omega) (by simp; omega) j (by omega) hkept hj'

/-- Behind a line that takes no other line the level goes on. -/
theorem afterLeaf (level : Level rs above pre (line :: rest) post)
    (hopens : opensBlock line.row = false) (hinside : hasInside line.row = false) :
    Level rs above (pre ++ [line.row]) rest post := by
  have hlen : (pre ++ [line.row]).length = pre.length + 1 := by simp
  refine ⟨by simpa using level.split, ?_, ?_, ?_, ?_⟩
  · intro l hl
    exact level.kinds l (List.mem_cons_of_mem _ hl)
  · intro row hrow l hl
    exact level.ends row hrow l (List.mem_cons_of_mem _ hl)
  · intro i hlow hhigh j hj hkept hj'
    rw [hlen] at hlow hhigh hj
    exact level.free_behind hopens (by omega) (by omega) hj hkept hj'
  · intro i hlow hhigh
    rw [hlen] at hlow hhigh ⊢
    -- the line itself is no candidate, so the search goes on above it
    have hnot : holds rs i pre.length = false := by
      simp [holds, level.at?_head, hinside]
    rw [nearest, hnot, if_neg (by simp)]
    exact level.under i (by omega) (by simp; omega)

/-- The run below a tag with an inside is a level of its own. -/
theorem inside (level : Level rs above pre (line :: rest) post)
    (hopens : opensBlock line.row = false) (hinside : hasInside line.row = true) :
    Level rs (some pre.length) (pre ++ [line.row]) (below line rest)
      ((beyond line rest).map Line.row ++ post) := by
  have hlen : (pre ++ [line.row]).length = pre.length + 1 := by simp
  have hrest : (below line rest).length ≤ rest.length := length_below_le line rest
  have hsub : ∀ l ∈ below line rest, l ∈ line :: rest := fun l hl =>
    List.mem_cons_of_mem _ ((List.takeWhile_sublist _).subset hl)
  refine ⟨level.split_below, fun l hl => level.kinds l (hsub l hl), ?_, ?_, ?_⟩
  · -- the row behind the run is the next line of the outer level, if there is one
    intro row hrow l hl
    have hl' := List.mem_takeWhile_imp hl
    cases hb : beyond line rest with
    | nil =>
      rw [hb] at hrow
      exact level.ends row hrow l (hsub l hl)
    | cons b bs =>
      have hstop : Stops (fun l : Line => decide (line.indent < l.indent)) (beyond line rest) :=
        stops_dropWhile rest
      rw [hb, stops_cons] at hstop
      rw [hb] at hrow
      obtain rfl : b.row = row := by simpa using hrow
      simp only [decide_eq_true_eq, decide_eq_false_iff_not, Line.row_indent] at hl' hstop ⊢
      omega
  · intro i hlow hhigh j hj hkept hj'
    rw [hlen] at hlow hhigh hj
    exact level.free_behind hopens (by omega) (by omega) hj hkept hj'
  · intro i hlow hhigh
    rw [hlen] at hlow hhigh ⊢
    -- the search for a place to nest in ends at the line at once
    have hcov : covers rs pre.length i = true :=
      level.covers_head_iff.mpr ⟨by omega, by omega⟩
    have hholds : holds rs i pre.length = true := by
      simp [holds, level.head_kept, level.at?_head, hinside, hcov]
    rw [nearest, hholds, if_pos rfl]

/-- Behind the run below a line the level goes on. -/
theorem after (level : Level rs above pre (line :: rest) post) :
    Level rs above (pre ++ [line.row] ++ (below line rest).map Line.row)
      (beyond line rest) post := by
  have hlen := length_upTo_beyond pre line rest
  have hrest := length_cons_below_beyond line rest
  rw [List.length_cons] at hrest
  have hsub : ∀ l ∈ beyond line rest, l ∈ line :: rest := fun l hl =>
    List.mem_cons_of_mem _ ((List.dropWhile_sublist _).subset hl)
  refine ⟨?_, fun l hl => level.kinds l (hsub l hl),
    fun row hrow l hl => level.ends row hrow l (hsub l hl), ?_, ?_⟩
  · rw [level.split_below]
    simp
  · intro i hlow hhigh j hj hkept hj'
    rw [hlen] at hlow hhigh hj
    by_cases hjp : j < pre.length
    · exact level.free i (by omega) (by simp; omega) j hjp hkept hj'
    · exact level.covers_beyond (by omega) (by omega) (by omega)
  · intro i hlow hhigh
    rw [hlen] at hlow hhigh ⊢
    -- neither the line nor the run below it covers `i`, so both are passed over
    have hskip : nearest (holds rs i) (pre.length + (1 + (below line rest).length))
        = nearest (holds rs i) pre.length := by
      refine nearest_skip (by omega) fun j hj hjc => ?_
      simp [holds, level.covers_beyond hj (by omega : j ≤ _) (by omega : _ < i)]
    rw [hskip]
    exact level.under i (by omega) (by simp; omega)

end Level

/-! ## §7. The rule. -/

/-- The rows among the `n` from `a` on that are not text of a block, each with
the row in which it nests. -/
def linksFrom (rs : List Row) (a n : Nat) : List (Nat × Option Nat) :=
  ((List.range' a n).filter fun i => !swallowed rs i).map fun i => (i, parent? rs i)

/-- Links in a row. -/
theorem linksFrom_add (rs : List Row) (a m n : Nat) :
    linksFrom rs a (m + n) = linksFrom rs a m ++ linksFrom rs (a + m) n := by
  unfold linksFrom
  rw [← List.range'_append_1, List.filter_append, List.map_append]

/-- The nodes grow from sprouts that use up the `n` rows from `a` on and are
linked as these rows nest. -/
def Grown (rs : List Row) (above : Option Nat) (a n : Nat) (nodes : List Node) : Prop :=
  ∃ sprouts : List Sprout, Sprout.nodes rs sprouts = nodes
    ∧ Sprout.allLinks above sprouts = linksFrom rs a n
    ∧ Sprout.allSpan rs sprouts = List.range' a n

variable {rs : List Row} {above : Option Nat}

theorem grown_nil (a : Nat) : Grown rs above a 0 [] := ⟨[], rfl, rfl, rfl⟩

/-- One more sprout in front of those that are already there. -/
theorem Grown.cons {s : Sprout} {node : Node} {nodes : List Node} {a m n : Nat}
    (hnode : s.node rs = node) (hlinks : s.links above = linksFrom rs a m)
    (hspan : s.span rs = List.range' a m) (h : Grown rs above (a + m) n nodes) :
    Grown rs above a (m + n) (node :: nodes) := by
  obtain ⟨ss, hnodes, hss, hsspan⟩ := h
  refine ⟨s :: ss, ?_, ?_, ?_⟩
  · rw [Sprout.nodes, hnode, hnodes]
  · rw [Sprout.allLinks, hlinks, hss, linksFrom_add]
  · rw [Sprout.allSpan, hspan, hsspan, List.range'_append_1]

section Step

variable {pre post : List Row} {rest : List Line} {nodes : List Node}

/-- The first line of a level is linked to the one above. -/
theorem linksFrom_head (level : Level rs above pre (line :: rest) post) :
    linksFrom rs pre.length 1 = [(pre.length, above)] := by
  simp [linksFrom, level.head_kept, level.head_parent]

/-- A line that takes no other line. -/
theorem grown_leaf {node : Node} (level : Level rs above pre (line :: rest) post)
    (hfits : Fits line.row (.leaf node))
    (h : Grown rs above (pre ++ [line.row]).length rest.length nodes) :
    Grown rs above pre.length (line :: rest).length (node :: nodes) := by
  obtain ⟨hopens, -, hnode⟩ := hfits
  rw [List.length_append, List.length_singleton] at h
  rw [List.length_cons, Nat.add_comm]
  refine Grown.cons (s := .mk pre.length []) ?_ ?_ ?_ h
  · rw [Sprout.node, level.getElem?_head]
    exact hnode rs pre.length
  · rw [linksFrom_head level]
    rfl
  · simp [Sprout.span, Sprout.allSpan, level.at?_head, hopens]

/-- A line whose block is the run below it. -/
theorem grown_block {node : Node} (level : Level rs above pre (line :: rest) post)
    (hopens : opensBlock line.row = true) (hnode : rowNode rs pre.length line.row [] = node)
    (h : Grown rs above (pre ++ [line.row] ++ (below line rest).map Line.row).length
      (beyond line rest).length nodes) :
    Grown rs above pre.length (line :: rest).length (node :: nodes) := by
  rw [length_upTo_beyond] at h
  rw [length_cons_below_beyond]
  refine Grown.cons (s := .mk pre.length []) ?_ ?_ ?_ h
  · rw [Sprout.node, level.getElem?_head]
    exact hnode
  · -- all of the run below is swallowed, so only the line itself is linked
    have hnone : linksFrom rs (pre.length + 1) (below line rest).length = [] := by
      unfold linksFrom
      rw [List.map_eq_nil_iff, List.filter_eq_nil_iff]
      intro i hi
      rw [List.mem_range'_1] at hi
      simp [level.swallowed_below hopens (by omega : pre.length < i) (by omega)]
    rw [linksFrom_add, linksFrom_head level, hnone]
    rfl
  · rw [Sprout.span, Sprout.allSpan, level.at?_head, hopens, if_pos rfl, level.covered_head,
      List.append_nil, Nat.add_comm 1, List.range'_succ]

/-- A tag with the nodes that grow from the run below it. -/
theorem grown_parent {tag : Tag} {front inner : List Node}
    (level : Level rs above pre (line :: rest) post)
    (hfits : Fits line.row (.parent tag front))
    (hinner : Grown rs (some pre.length) (pre ++ [line.row]).length (below line rest).length inner)
    (h : Grown rs above (pre ++ [line.row] ++ (below line rest).map Line.row).length
      (beyond line rest).length nodes) :
    Grown rs above pre.length (line :: rest).length
      (.element tag (front.reverse ++ inner) :: nodes) := by
  obtain ⟨hopens, -, hnode⟩ := hfits
  obtain ⟨inside, hin, hlinks, hspan⟩ := hinner
  rw [List.length_append, List.length_singleton] at hlinks hspan
  rw [length_upTo_beyond] at h
  rw [length_cons_below_beyond]
  refine Grown.cons (s := .mk pre.length inside) ?_ ?_ ?_ h
  · rw [Sprout.node, level.getElem?_head, hin]
    exact hnode rs pre.length inner
  · rw [Sprout.links, hlinks, linksFrom_add, linksFrom_head level]
    rfl
  · rw [Sprout.span, level.at?_head, hopens, if_neg (by simp), hspan, Nat.add_comm 1,
      List.range'_succ]
    rfl

end Step

/-- **The nodes of a level grow from its rows.**  The induction is the one of
the reader: the run below a tag and the lines behind that run are levels again. -/
theorem forest_sprouts {done : List Node} {seg : List Line} {nodes : List Node}
    {pre post : List Row} (level : Level rs above pre seg post)
    (h : forest depth done seg = .ok nodes) :
    ∃ grown, nodes = done.reverse ++ grown ∧ Grown rs above pre.length seg.length grown := by
  fun_induction forest depth done seg generalizing above pre post nodes with
  | case1 depth done =>
    injection h with h
    exact ⟨[], by simp [h], grown_nil _⟩
  | case2 depth done line rest fault hrole => exact absurd h (by simp)
  | case3 depth done line rest node hrole ih =>
    have hfits := role_fits (level.kinds line List.mem_cons_self) hrole
    obtain ⟨grown, hnodes, hgrown⟩ := ih (level.afterLeaf hfits.1 hfits.2.1) h
    refine ⟨node :: grown, by simp [hnodes], grown_leaf level hfits hgrown⟩
  | case4 depth done line rest hrole ih =>
    have hfits := role_fits (level.kinds line List.mem_cons_self) hrole
    obtain ⟨grown, hnodes, hgrown⟩ := ih level.after h
    refine ⟨_, ?_, grown_block level hfits.1 (hfits.2.2 rs pre.length) hgrown⟩
    simp [hnodes, level.blockText_head]
  | case5 depth done line rest tag hrole block =>
    -- as with a bare `|`, but a tag without a run below it has no child
    rename_i children ih
    have hfits := role_fits (level.kinds line List.mem_cons_self) hrole
    obtain ⟨grown, hnodes, hgrown⟩ := ih level.after h
    refine ⟨_, ?_, grown_block level hfits.1 (hfits.2 rs pre.length) hgrown⟩
    have hempty : (covered rs pre.length).isEmpty = block.isEmpty := by
      rw [level.covered_head]
      cases hb : below line rest <;> simp [block, hb]
    simp [hnodes, lead, hempty, level.blockText_head, children, block]
  | case6 depth done line rest tag front hrole fault hinner ih => exact absurd h (by simp)
  | case7 depth done line rest tag front hrole inner hinner ih₁ ih₂ =>
    -- the reader's two calls: one for the run below the tag, one behind it
    have hfits := role_fits (level.kinds line List.mem_cons_self) hrole
    obtain ⟨grown₁, hnodes₁, hgrown₁⟩ := ih₁ (level.inside hfits.1 hfits.2.1) hinner
    obtain ⟨grown₂, hnodes₂, hgrown₂⟩ := ih₂ level.after h
    refine ⟨_, ?_, grown_parent level hfits hgrown₁ hgrown₂⟩
    simp [hnodes₁, hnodes₂]

/-- The lines of a whole source are one level, below nothing. -/
theorem level_scan (source : String) :
    Level (rows source.toList) none [] (Line.scan source) [] where
  split := by simp [scan_rows]
  kinds := fun _ hline => kind_of_mem_scan hline
  ends := by simp
  free := by simp
  under := fun _ _ _ => rfl

/-- **THE OFFSIDE RULE.**  The page of a source grows from sprouts over its
rows.  A row is swallowed exactly when an earlier row that is not swallowed
opens a block and covers it.  The rows that are not swallowed are the sprouts,
each once and from the top down in the order of the source, and each nests in
the nearest earlier tag with an inside that covers it.  Together with the rows
of the blocks they use up every row once. -/
theorem parse_follows_offside_rule (source : String) (forest : List Node)
    (h : parse source = .ok forest) :
    (∀ i, swallowed (rows source.toList) i = true ↔
        ∃ j, j < i ∧ swallowed (rows source.toList) j = false
          ∧ at? (rows source.toList) j opensBlock = true
          ∧ covers (rows source.toList) j i = true)
      ∧ ∃ sprouts : List Sprout,
          forest = Sprout.nodes (rows source.toList) sprouts
            ∧ Sprout.allLinks none sprouts
                = (kept (rows source.toList)).map
                    (fun i => (i, parent? (rows source.toList) i))
            ∧ Sprout.allSpan (rows source.toList) sprouts
                = List.range (rows source.toList).length := by
  refine ⟨fun i => swallowed_eq_true_iff, ?_⟩
  obtain ⟨-, hforest⟩ := parse_eq_ok_iff.mp h
  -- the sprouts are counted from the first line on, and no line is left over
  obtain ⟨grown, hgrown, sprouts, hnodes, hlinks, hspan⟩ :=
    forest_sprouts (level_scan source) hforest
  have hlen : (Line.scan source).length = (rows source.toList).length := by
    rw [← scan_rows, List.length_map]
  rw [List.length_nil, hlen] at hlinks hspan
  refine ⟨sprouts, ?_, ?_, ?_⟩
  · rw [hgrown, hnodes]
    rfl
  · rw [hlinks, linksFrom, kept, List.range_eq_range']
  · rw [hspan, List.range_eq_range']

/-- A tag with a block, a void tag with a deeper line below it, and a bare `|`
that is less deep than the lines before it. -/
theorem parse_follows_offside_rule_uneven :
    parse "div\n  p: |\n     a\n   b\n  br\n      q: x\n |\n  t" = .ok
        [.element ⟨"div", [], none, []⟩
          [.element ⟨"p", [], none, []⟩ [.text "a\nb"], .void ⟨"br", [], none, []⟩,
            .element ⟨"q", [], none, []⟩ [.text "x"], .text "t"]]
      ∧ ∃ sprouts : List Sprout,
          Sprout.allLinks none sprouts
              = [(0, none), (1, some 0), (4, some 0), (5, some 0), (6, some 0)]
            ∧ Sprout.allSpan (rows
                "div\n  p: |\n     a\n   b\n  br\n      q: x\n |\n  t".toList) sprouts
                = [0, 1, 2, 3, 4, 5, 6, 7] := by
  have hparse : parse "div\n  p: |\n     a\n   b\n  br\n      q: x\n |\n  t" = .ok
      [.element ⟨"div", [], none, []⟩
        [.element ⟨"p", [], none, []⟩ [.text "a\nb"], .void ⟨"br", [], none, []⟩,
          .element ⟨"q", [], none, []⟩ [.text "x"], .text "t"]] := by
    rw [parse_eq_ok_iff, check_eq_ok_iff]
    exact ⟨⟨by decide, by decide, by rfl⟩, by decide +kernel⟩
  obtain ⟨-, sprouts, -, hlinks, hspan⟩ := parse_follows_offside_rule _ _ hparse
  refine ⟨hparse, sprouts, ?_, ?_⟩
  · rw [hlinks]
    decide +kernel
  · rw [hspan]
    decide +kernel

end Offside.Nesting
