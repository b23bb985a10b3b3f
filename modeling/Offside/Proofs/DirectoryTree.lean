/-
  Offside.Proofs.DirectoryTree
  ────────────────────────────
  **THE SOURCES OF A DIRECTORY IN A TREE OF FILES.**

  A store is a tree if there are no links in it, and every location has one entry
  and stands in a directory.  In a tree a source below a directory is given by the
  names on the way to it and its stem (`Holds`), and everything about it follows
  from these: its path, its location, and the path and the location of its page
  (`targetOf_within`, `placeOf_within`).  So distinct sources have distinct targets
  at distinct locations, none of them where a source may stand, and the list of
  the sources is strictly sorted (`filesBelow_sorted`).
-/
import Offside.Proofs.CompileFile

namespace Offside

/-! ## §1. Files below a path. -/

namespace Files

/-- The path of an entry below the directory at a location, if it is a file with an
accepted name that stands in the directory itself or may stand deeper. -/
def fileBelow? (p : Path) (loc : Location) (deep : Bool) (accept : String → Bool)
    (e : Location × FileEntry) : Option Path :=
  match e.2 with
  | .directory => none
  | .file .. =>
    let rest := e.1.drop loc.length
    if loc.isPrefixOf e.1 && accept (e.1.getLast?.getD "")
        && (rest.length == 1 || (deep && !rest.isEmpty)) then
      some { p with parts := p.parts ++ rest }
    else none

/-- Paths sorted by their parts. -/
abbrev sortPaths (paths : List Path) : List Path := paths.foldr insertPath []

/-- The files with accepted names below a path, read off the entries of the store and
sorted by the parts of their paths. -/
def filesBelow (fs : Files) (p : Path) (deep : Bool) (accept : String → Bool) : List Path :=
  sortPaths (fs.entries.filterMap (fileBelow? p (fs.placeOf p) deep accept))

/-- A path that is put in is one more path. -/
theorem perm_insertPath (p : Path) (paths : List Path) : (insertPath p paths).Perm (p :: paths) := by
  induction paths with
  | nil => exact List.Perm.refl _
  | cons q rest ih =>
    unfold insertPath
    split
    next => exact List.Perm.refl _
    next => exact (ih.cons q).trans (List.Perm.swap p q rest)

/-- Sorting keeps the paths. -/
theorem perm_sortPaths (paths : List Path) : (sortPaths paths).Perm paths := by
  induction paths with
  | nil => exact List.Perm.refl _
  | cons p rest ih => exact (perm_insertPath p _).trans (ih.cons p)

/-- A path is put in where it belongs. -/
theorem insertPath_sorted {p : Path} {paths : List Path}
    (h : paths.Pairwise fun a b => a.parts ≤ b.parts) :
    (insertPath p paths).Pairwise fun a b => a.parts ≤ b.parts := by
  induction paths with
  | nil => exact List.pairwise_singleton _ _
  | cons q rest ih =>
    obtain ⟨hq, hrest⟩ := List.pairwise_cons.mp h
    unfold insertPath
    split
    next hlt =>
      refine List.pairwise_cons.mpr ⟨fun a ha => ?_, h⟩
      cases List.mem_cons.mp ha with
      | inl hfirst => exact hfirst ▸ le_of_lt hlt
      | inr hlater => exact le_trans (le_of_lt hlt) (hq a hlater)
    next hge =>
      refine List.pairwise_cons.mpr ⟨fun a ha => ?_, ih hrest⟩
      cases List.mem_cons.mp ((perm_insertPath p rest).mem_iff.mp ha) with
      | inl hnew => exact hnew ▸ not_lt.mp hge
      | inr hold => exact hq a hold

/-- Sorted paths are sorted. -/
theorem sortPaths_sorted (paths : List Path) :
    (sortPaths paths).Pairwise fun a b => a.parts ≤ b.parts := by
  induction paths with
  | nil => exact List.Pairwise.nil
  | cons p rest ih => exact insertPath_sorted ih

/-- **A file below a directory** is given by the names on the way to it. -/
theorem fileBelow?_eq_some_iff {p q : Path} {loc : Location} {deep : Bool}
    {accept : String → Bool} {e : Location × FileEntry} :
    fileBelow? p loc deep accept e = some q ↔
      ∃ above name content mtime executable,
        e = (loc ++ (above ++ [name]), .file content mtime executable)
          ∧ (deep = true ∨ above = [])
          ∧ accept name = true
          ∧ q = ⟨p.anchor, p.parts ++ (above ++ [name])⟩ := by
  constructor
  · intro h
    obtain ⟨l, entry⟩ := e
    cases entry with
    | directory => exact absurd h (by simp [fileBelow?])
    | file content mtime executable =>
      simp only [fileBelow?] at h
      split at h
      next hcond =>
        injection h with h
        simp only [Bool.and_eq_true, List.isPrefixOf_iff_prefix] at hcond
        obtain ⟨⟨⟨rest, rfl⟩, hname⟩, hlength⟩ := hcond
        rw [List.drop_left] at hlength h
        -- a file is below its directory, so there is a last name
        have hne : rest ≠ [] := by
          rintro rfl
          simp at hlength
        obtain ⟨above, name, rfl⟩ := (List.eq_nil_or_concat' rest).resolve_left hne
        refine ⟨above, name, content, mtime, executable, rfl, ?_, ?_, h.symm⟩
        · simpa [or_comm] using hlength
        · simpa [← List.append_assoc, List.getLast?_concat] using hname
      next => exact absurd h (by simp)
  · intro h
    obtain ⟨above, name, content, mtime, executable, rfl, hdeep, hname, rfl⟩ := h
    simp only [fileBelow?, List.drop_left]
    rw [if_pos]
    simp only [Bool.and_eq_true, List.isPrefixOf_iff_prefix]
    refine ⟨⟨List.prefix_append _ _, ?_⟩, ?_⟩
    · rw [← List.append_assoc, List.getLast?_concat]
      exact hname
    · simpa [or_comm] using hdeep

end Files

namespace Directory

open Compiler

/-! ## §2. Names that lead down. -/

/-- A plain name leads one step down. -/
theorem hop_of_ne {loc : Location} {name : String} (hdot : name ≠ ".") (hup : name ≠ "..") :
    Files.hop loc name = loc ++ [name] := by
  simp [Files.hop, hdot, hup]

/-- Names of entries, none of which stands for this directory or the one above. -/
def Plain (names : List String) : Prop := ∀ name ∈ names, name ≠ "." ∧ name ≠ ".."

instance (names : List String) : Decidable (Plain names) :=
  inferInstanceAs (Decidable (∀ name ∈ names, name ≠ "." ∧ name ≠ ".."))

/-- Plain names in a row are plain. -/
theorem Plain.append {a b : List String} (ha : Plain a) (hb : Plain b) : Plain (a ++ b) := by
  intro name hname
  cases List.mem_append.mp hname with
  | inl h => exact ha name h
  | inr h => exact hb name h

/-- Plain names lead down, one step for each. -/
theorem foldl_hop_of_plain (loc : Location) {names : List String} (h : Plain names) :
    names.foldl Files.hop loc = loc ++ names := by
  induction names generalizing loc with
  | nil => simp
  | cons name rest ih =>
    obtain ⟨hdot, hup⟩ := h name (by simp)
    have hrest : Plain rest := fun n hn => h n (by simp [hn])
    rw [List.foldl_cons, hop_of_ne hdot hup, ih (loc ++ [name]) hrest, List.append_assoc]
    rfl

/-- A step leads from plain names to plain names. -/
theorem plain_hop {loc : Location} (h : Plain loc) (name : String) : Plain (Files.hop loc name) := by
  unfold Files.hop
  split
  next => exact h
  next hdot =>
    split
    next => exact fun n hn => h n (List.dropLast_subset loc hn)
    next hup =>
      apply h.append
      intro n hn
      rw [List.mem_singleton.mp hn]
      exact ⟨by simpa using hdot, by simpa using hup⟩

theorem plain_foldl_hop {loc : Location} (h : Plain loc) (names : List String) :
    Plain (names.foldl Files.hop loc) := by
  induction names generalizing loc with
  | nil => exact h
  | cons name rest ih => exact ih (plain_hop h name)

/-- Without links, a path leads to plain names. -/
theorem plain_placeOf {fs : Files} (hlinks : fs.links = []) (hhome : Plain fs.home) (p : Path) :
    Plain (fs.placeOf p) := by
  rw [(Files.direct_of_unlinked hlinks p).placeOf]
  apply plain_foldl_hop
  unfold Files.origin
  split
  next => exact hhome
  next => exact fun name hname => absurd hname (by simp)

/-- A path as it is read: dots that stand for nothing are gone. -/
def Clean (p : Path) : Prop := "." ∉ p.parts

/-- Without single dots, following names is resolving them. -/
theorem foldl_step_of_clean (loc : Location) {names : List String} (h : "." ∉ names) :
    names.foldl Files.resolve.step loc = names.foldl Files.hop loc := by
  induction names generalizing loc with
  | nil => rfl
  | cons name rest ih =>
    rw [List.mem_cons, not_or] at h
    have hdot : (name == ".") = false := by simpa using Ne.symm h.1
    have hstep : Files.resolve.step loc name = Files.hop loc name := by
      unfold Files.resolve.step Files.hop
      simp [hdot]
    rw [List.foldl_cons, List.foldl_cons, hstep]
    exact ih _ h.2

/-- Without links, a clean path leads where it leads once it is resolved. -/
theorem placeOf_resolve {fs : Files} (hlinks : fs.links = []) (hhome : Plain fs.home) {p : Path}
    (h : Clean p) : fs.placeOf (fs.resolve p) = fs.placeOf p := by
  have hdirect := Files.direct_of_unlinked hlinks
  have hparts : (fs.resolve p).parts = fs.placeOf p := by
    rw [(hdirect p).placeOf]
    unfold Files.resolve
    rw [(hdirect p).fullRoute]
    exact foldl_step_of_clean _ h
  calc fs.placeOf (fs.resolve p)
      = (fs.resolve p).parts.foldl Files.hop [] := (hdirect _).placeOf
    _ = [] ++ fs.placeOf p := by
        rw [hparts]
        exact foldl_hop_of_plain [] (plain_placeOf hlinks hhome p)
    _ = fs.placeOf p := List.nil_append _

/-! ## §3. Stems. -/

/-- The name of a source is cut before its suffix. -/
theorem splitSuffix_source {stem : String} (h : stem ≠ "") :
    Path.splitSuffix (stem ++ sourceSuffix) = (stem, sourceSuffix) := by
  have hrev : (stem ++ sourceSuffix).toList.reverse
      = 'l' :: 'm' :: 't' :: '.' :: stem.toList.reverse := by
    rw [String.toList_append, List.reverse_append]
    rfl
  have hafter : (stem ++ sourceSuffix).toList.reverse.takeWhile (· != '.') = ['l', 'm', 't'] := by
    rw [hrev]
    rfl
  have hne : stem.toList ≠ [] := by
    intro hnil
    exact h (String.toList_eq_nil_iff.mp hnil)
  unfold Path.splitSuffix
  simp only [hrev]
  show (if (false || (stem.toList.reverse).reverse.isEmpty) = true then _
    else (String.ofList (stem.toList.reverse).reverse, _)) = _
  rw [List.reverse_reverse, if_neg (by simpa using hne), String.ofList_toList]
  rfl

/-- The names of sources are the stems with the suffix behind them. -/
theorem isSourceName_iff {name : String} :
    isSourceName name = true ↔ ∃ stem, stem ≠ "" ∧ name = stem ++ sourceSuffix := by
  constructor
  · intro h
    unfold isSourceName Path.splitSuffix at h
    simp only at h
    split at h
    next => exact absurd h (by simp [sourceSuffix])
    next hcut =>
      simp only [Bool.or_eq_true, not_or] at hcut
      obtain ⟨-, hbefore⟩ := hcut
      have hsuffix : '.' :: (name.toList.reverse.takeWhile (· != '.')).reverse
          = ['.', 't', 'm', 'l'] := by
        have := congrArg String.toList (beq_iff_eq.mp h)
        rwa [String.toList_ofList] at this
      have hafter : name.toList.reverse.takeWhile (· != '.') = ['l', 'm', 't'] := by
        injection hsuffix with _ htail
        have := congrArg List.reverse htail
        rwa [List.reverse_reverse] at this
      rw [hafter] at hbefore
      -- something stands in front of the suffix, and what ends the run is a dot
      have hsplit := List.takeWhile_append_dropWhile (p := (· != '.')) (l := name.toList.reverse)
      rw [hafter] at hsplit
      cases hdrop : name.toList.reverse.dropWhile (· != '.') with
      | nil =>
        rw [hdrop] at hsplit
        rw [← hsplit] at hbefore
        exact absurd rfl hbefore
      | cons c before =>
        have hdot : c = '.' := by
          have := List.head?_dropWhile_not (· != '.') name.toList.reverse
          rw [hdrop] at this
          simpa using this
        subst hdot
        rw [hdrop] at hsplit
        rw [← hsplit] at hbefore
        refine ⟨String.ofList before.reverse, ?_, ?_⟩
        · intro hempty
          have hnil := congrArg String.toList hempty
          rw [String.toList_ofList] at hnil
          exact hbefore (by simpa using hnil)
        · apply String.toList_injective
          rw [String.toList_append, String.toList_ofList, ← List.reverse_reverse name.toList,
            ← hsplit]
          simp [sourceSuffix]
  · intro h
    obtain ⟨stem, hne, rfl⟩ := h
    unfold isSourceName
    rw [splitSuffix_source hne]
    exact beq_self_eq_true _

/-- What ends in the suffix of a page is no source. -/
theorem isSourceName_page (stem : String) : isSourceName (stem ++ outputSuffix) = false := by
  have hrev : (stem ++ outputSuffix).toList.reverse
      = 'l' :: 'm' :: 't' :: 'h' :: '.' :: stem.toList.reverse := by
    rw [String.toList_append, List.reverse_append]
    rfl
  have hafter : (stem ++ outputSuffix).toList.reverse.takeWhile (· != '.')
      = ['l', 'm', 't', 'h'] := by
    rw [hrev]
    rfl
  unfold isSourceName Path.splitSuffix
  simp only [hafter]
  split
  next =>
    show ("" == sourceSuffix) = false
    decide
  next =>
    show (String.ofList ['.', 'h', 't', 'm', 'l'] == sourceSuffix) = false
    decide

/-! ## §4. Where sources and pages stand. -/

/-- A location at which a source may stand. -/
def SourceSpot (loc : Location) : Prop := isSourceName (loc.getLast?.getD "") = true

/-- A page stands where its name ends in the suffix of a page. -/
theorem exists_placeOf_page {fs : Files} (hlinks : fs.links = []) {p : Path} (h : p.parts ≠ []) :
    ∃ above stem, fs.placeOf (p.withSuffix outputSuffix) = above ++ [stem ++ outputSuffix] := by
  obtain ⟨name, hname⟩ : ∃ name, p.parts.getLast? = some name :=
    ⟨_, List.getLast?_eq_some_getLast h⟩
  have hlong : ∀ short : String, short.length < 5 →
      (Path.splitSuffix name).1 ++ outputSuffix ≠ short := by
    intro short hshort heq
    rw [← heq, String.length_append] at hshort
    have : outputSuffix.length = 5 := by decide
    omega
  refine ⟨p.parts.dropLast.foldl Files.hop (fs.origin p), (Path.splitSuffix name).1, ?_⟩
  rw [(Files.direct_of_unlinked hlinks _).placeOf]
  unfold Path.withSuffix
  rw [hname]
  simp only [List.foldl_append, List.foldl_cons, List.foldl_nil]
  rw [hop_of_ne (hlong "." (by decide)) (hlong ".." (by decide))]
  rfl

/-- A page is never written over a source. -/
theorem not_sourceSpot_page {fs : Files} (hlinks : fs.links = []) {p : Path} (h : p.parts ≠ []) :
    ¬ SourceSpot (fs.placeOf (p.withSuffix outputSuffix)) := by
  obtain ⟨above, stem, hplace⟩ := exists_placeOf_page hlinks h
  unfold SourceSpot
  rw [hplace, List.getLast?_concat]
  simp [isSourceName_page]

/-- A path that ends in a name that leads down is resolved to a place of that name. -/
theorem exists_placeOf_resolve {fs fs' : Files} (hlinks : fs.links = []) (hlinks' : fs'.links = [])
    (anchor : Anchor) (above : List String) {name : String} (hdot : name ≠ ".") (hup : name ≠ "..") :
    ∃ folder, fs'.placeOf (fs.resolve ⟨anchor, above ++ [name]⟩) = folder ++ [name] := by
  rw [(Files.direct_of_unlinked hlinks' _).placeOf]
  unfold Files.resolve
  rw [(Files.direct_of_unlinked hlinks _).fullRoute]
  simp only [List.foldl_append, List.foldl_cons, List.foldl_nil]
  rw [Files.resolve.step, if_neg (by simpa using hup), List.foldl_append, List.foldl_cons,
    List.foldl_nil, hop_of_ne hdot hup]
  exact ⟨_, rfl⟩

/-- A path with the name of a source leads to a location for one. -/
theorem sourceSpot_resolve {fs fs' : Files} (hlinks : fs.links = []) (hlinks' : fs'.links = [])
    {anchor : Anchor} {above : List String} {name : String} (hname : isSourceName name = true) :
    SourceSpot (fs'.placeOf (fs.resolve ⟨anchor, above ++ [name]⟩)) := by
  have hne : ∀ other, isSourceName other = false → name ≠ other := by
    rintro other hother rfl
    exact absurd hname (by simp [hother])
  obtain ⟨folder, hplace⟩ := exists_placeOf_resolve hlinks hlinks' anchor above
    (hne "." (by decide)) (hne ".." (by decide))
  unfold SourceSpot
  rw [hplace, List.getLast?_concat]
  exact hname

/-- A source file of the directory `source`, or of one below it if `deep`. -/
def Covered (fs : Files) (source : Path) (deep : Bool) (file : Path) : Prop :=
  ∃ above name content mtime executable,
    (fs.placeOf source ++ (above ++ [name]), FileEntry.file content mtime executable) ∈ fs.entries
      ∧ (deep = true ∨ above = [])
      ∧ isSourceName name = true
      ∧ file = ⟨source.anchor, source.parts ++ (above ++ [name])⟩

/-- The covered files can be read off the entries of a store. -/
theorem covered_iff {fs : Files} {source : Path} {deep : Bool} {file : Path} :
    Covered fs source deep file ↔
      file ∈ fs.entries.filterMap
        (Files.fileBelow? source (fs.placeOf source) deep isSourceName) := by
  simp only [List.mem_filterMap, Files.fileBelow?_eq_some_iff]
  constructor
  · rintro ⟨above, name, content, mtime, executable, hmem, hdeep, hname, hfile⟩
    exact ⟨_, hmem, above, name, content, mtime, executable, rfl, hdeep, hname, hfile⟩
  · rintro ⟨e, hmem, above, name, content, mtime, executable, rfl, hdeep, hname, hfile⟩
    exact ⟨above, name, content, mtime, executable, hmem, hdeep, hname, hfile⟩

/-- **The files that are listed** are those that are covered. -/
theorem mem_filesBelow {fs : Files} {source : Path} {deep : Bool} {file : Path} :
    file ∈ fs.filesBelow source deep isSourceName ↔ Covered fs source deep file := by
  unfold Files.filesBelow
  rw [covered_iff, (Files.perm_sortPaths _).mem_iff]

/-- The path of a covered file leads to a location for a source. -/
theorem Covered.sourceSpot {fs : Files} {source : Path} {deep : Bool} {file : Path}
    (h : Covered fs source deep file) {fs₁ fs₂ : Files} (hlinks₁ : fs₁.links = [])
    (hlinks₂ : fs₂.links = []) : SourceSpot (fs₁.placeOf (fs₂.resolve file)) := by
  obtain ⟨above, name, -, -, -, -, -, hname, rfl⟩ := h
  rw [← List.append_assoc]
  exact sourceSpot_resolve hlinks₂ hlinks₁ hname

/-- The target of a covered file is no location for a source. -/
theorem Covered.not_sourceSpot_target {fs : Files} {source : Path} {deep : Bool} {file : Path}
    (h : Covered fs source deep file) {fs₁ : Files} (hlinks : fs₁.links = [])
    (output : Option Path) : ¬ SourceSpot (fs₁.placeOf (targetOf source output file)) := by
  obtain ⟨above, name, -, -, -, -, -, -, rfl⟩ := h
  refine not_sourceSpot_page hlinks ?_
  cases output with
  | none => simp
  | some out => simp [Path.join, Path.relativeTo]

/-! ## §5. Trees. -/

/-- A store without links, in which every location has at most one entry, every entry
stands in a directory, and every name leads down and can be written. -/
structure IsTree (fs : Files) : Prop where
  unlinked : fs.links = []
  distinct : (fs.entries.map Prod.fst).Nodup
  rooted : ∀ e ∈ fs.entries, e.1 ≠ []
  plain : ∀ e ∈ fs.entries, Plain e.1
  named : ∀ e ∈ fs.entries, ∀ name ∈ e.1, name.toList.contains '\x00' = false
  above : ∀ e ∈ fs.entries, fs.at? e.1.dropLast = some .directory
  home : Plain fs.home

/-- Whether there is a directory at a location can be found out. -/
instance (fs : Files) (loc : Location) : Decidable (fs.at? loc = some .directory) :=
  decidable_of_iff ((fs.at? loc).any (fun entry => entry matches .directory) = true) <| by
    cases fs.at? loc with
    | none => simp
    | some entry => cases entry <;> simp

/-- Whether a store is a tree can be found out. -/
instance (fs : Files) : Decidable (IsTree fs) :=
  decidable_of_iff
    (fs.links = [] ∧ (fs.entries.map Prod.fst).Nodup ∧ (∀ e ∈ fs.entries, e.1 ≠ [])
      ∧ (∀ e ∈ fs.entries, Plain e.1)
      ∧ (∀ e ∈ fs.entries, ∀ name ∈ e.1, name.toList.contains '\x00' = false)
      ∧ (∀ e ∈ fs.entries, fs.at? e.1.dropLast = some .directory) ∧ Plain fs.home)
    ⟨fun ⟨unlinked, distinct, rooted, plain, named, above, home⟩ =>
        ⟨unlinked, distinct, rooted, plain, named, above, home⟩,
      fun h => ⟨h.unlinked, h.distinct, h.rooted, h.plain, h.named, h.above, h.home⟩⟩

/-- In a tree, every entry is found. -/
theorem at?_eq_some_of_mem {fs : Files} (htree : IsTree fs) {loc : Location} {entry : FileEntry}
    (h : (loc, entry) ∈ fs.entries) : fs.at? loc = some entry := by
  rw [Files.at?_of_ne_nil (htree.rooted _ h)]
  cases hfind : fs.entries.find? (fun e => e.1 == loc) with
  | none => exact absurd (List.find?_eq_none.mp hfind _ h) (by simp)
  | some found =>
    have hloc : found.1 = loc := by simpa using List.find?_some hfind
    have hsame := List.inj_on_of_nodup_map htree.distinct (List.mem_of_find?_eq_some hfind) h hloc
    rw [hsame]
    rfl

/-- What is found is an entry. -/
theorem mem_of_at?_eq_some {fs : Files} {loc : Location} (hne : loc ≠ []) {entry : FileEntry}
    (h : fs.at? loc = some entry) : (loc, entry) ∈ fs.entries := by
  rw [Files.at?_of_ne_nil hne] at h
  obtain ⟨⟨found, entry'⟩, hfind, rfl⟩ := Option.map_eq_some_iff.mp h
  have hloc : found = loc := by simpa using List.find?_some hfind
  rw [← hloc]
  exact List.mem_of_find?_eq_some hfind

/-- What stands below a location stands in a directory there. -/
theorem directory_of_below {fs : Files} (htree : IsTree fs) {loc rest : Location} (hne : rest ≠ [])
    {entry : FileEntry} (h : fs.at? (loc ++ rest) = some entry) : fs.at? loc = some .directory := by
  induction rest using List.reverseRecOn generalizing entry with
  | nil => exact absurd rfl hne
  | append_singleton rest name ih =>
    rw [← List.append_assoc] at h
    have habove := htree.above _ (mem_of_at?_eq_some (by simp) h)
    rw [List.dropLast_concat] at habove
    by_cases hrest : rest = []
    · rw [hrest, List.append_nil] at habove
      exact habove
    · exact ih hrest habove

/-- In a tree, there are plain names only. -/
theorem plain_of_at?_eq_some {fs : Files} (htree : IsTree fs) {loc rest : Location} {entry : FileEntry}
    (h : fs.at? (loc ++ rest) = some entry) : Plain rest := by
  by_cases hnil : loc ++ rest = []
  · rw [(List.append_eq_nil_iff.mp hnil).2]
    exact fun name hname => absurd hname (by simp)
  · exact fun name hname =>
      htree.plain _ (mem_of_at?_eq_some hnil h) name (List.mem_append_right _ hname)

/-- A path can be walked down if it leads to an entry of a tree and could be walked
down later. -/
theorem walk_of_kept {made written : Location → Prop} {a b : Files} (htree : IsTree a)
    (hkept : Files.Kept made written a b) {loc loc' rest : Location} {entry : FileEntry}
    (hat : a.at? (loc ++ rest) = some entry) (hwalk : b.walk loc rest = .ok loc') :
    a.walk loc rest = .ok loc' := by
  induction rest generalizing loc with
  | nil => exact hwalk
  | cons name more ih =>
    have hdirectory := directory_of_below htree (by simp) hat
    obtain ⟨hdot, hup⟩ := plain_of_at?_eq_some htree hat name (by simp)
    rw [Files.walk_cons, hkept.directory hdirectory] at hwalk
    rw [Files.walk_cons, hdirectory]
    simp only at hwalk ⊢
    split at hwalk
    next => exact absurd hwalk (by simp)
    next hshort =>
      rw [if_neg hshort]
      rw [hop_of_ne hdot hup] at hwalk ⊢
      exact ih (by rwa [← List.append_cons]) hwalk

/-! ## §6. Sources below a directory, and their pages. -/

/-- The path of these names below another path. -/
def within (base : Path) (rest : List String) : Path := ⟨base.anchor, base.parts ++ rest⟩

/-- Without links, plain names below a path lead below its place. -/
theorem placeOf_within {fs : Files} (hlinks : fs.links = []) (base : Path) {rest : List String}
    (h : Plain rest) : fs.placeOf (within base rest) = fs.placeOf base ++ rest := by
  rw [(Files.direct_of_unlinked hlinks _).placeOf, (Files.direct_of_unlinked hlinks _).placeOf]
  unfold within
  rw [List.foldl_append]
  exact foldl_hop_of_plain _ h

/-- The names on the way to the source with a stem, and to its page. -/
def sourceNames (above : List String) (stem : String) : List String :=
  above ++ [stem ++ sourceSuffix]

def pageNames (above : List String) (stem : String) : List String :=
  above ++ [stem ++ outputSuffix]

/-- A source with this stem stands below the directory, or directly in it unless
`deep`. -/
structure Holds (fs : Files) (source : Path) (deep : Bool) (above : List String) (stem : String) :
    Prop where
  named : stem ≠ ""
  reached : deep = true ∨ above = []
  there : (fs.version? (fs.placeOf source ++ sourceNames above stem)).isSome

/-- **The covered files** of a tree are its sources. -/
theorem covered_iff_holds {fs : Files} (htree : IsTree fs) {source : Path} {deep : Bool} {file : Path} :
    Covered fs source deep file ↔
      ∃ above stem, Holds fs source deep above stem
        ∧ file = within source (sourceNames above stem) := by
  constructor
  · intro h
    obtain ⟨above, name, content, mtime, executable, hmem, hdeep, hname, rfl⟩ := h
    obtain ⟨stem, hne, rfl⟩ := isSourceName_iff.mp hname
    refine ⟨above, stem, ⟨hne, hdeep, ?_⟩, rfl⟩
    unfold Files.version? sourceNames
    rw [at?_eq_some_of_mem htree hmem]
    rfl
  · intro h
    obtain ⟨above, stem, hholds, rfl⟩ := h
    obtain ⟨version, hversion⟩ := Option.isSome_iff_exists.mp hholds.there
    unfold Files.version? at hversion
    split at hversion
    next content mtime executable hat =>
      exact ⟨above, _, content, mtime, executable, Files.mem_entries_of_file hat, hholds.reached,
        isSourceName_iff.mpr ⟨stem, hholds.named, rfl⟩, rfl⟩
    next => exact absurd hversion (by simp)

namespace Holds

variable {fs : Files} {source : Path} {deep : Bool} {above : List String} {stem : String}

/-- The names of a source are plain. -/
theorem plain (htree : IsTree fs) (h : Holds fs source deep above stem) :
    Plain (sourceNames above stem) := by
  obtain ⟨version, hversion⟩ := Option.isSome_iff_exists.mp h.there
  unfold Files.version? at hversion
  split at hversion
  next hat => exact plain_of_at?_eq_some htree hat
  next => exact absurd hversion (by simp)

/-- What ends in the suffix of a page stands for no directory. -/
theorem plain_page (htree : IsTree fs) (h : Holds fs source deep above stem) :
    Plain (pageNames above stem) := by
  have habove : Plain above :=
    fun name hname => h.plain htree name (List.mem_append_left _ hname)
  apply habove.append
  intro name hname
  rw [List.mem_singleton.mp hname]
  have hlong : ∀ short : String, short.length < 5 → stem ++ outputSuffix ≠ short := by
    intro short hshort heq
    rw [← heq, String.length_append] at hshort
    have : outputSuffix.length = 5 := by decide
    omega
  exact ⟨hlong "." (by decide), hlong ".." (by decide)⟩

end Holds

/-- The path of a source below a clean path is clean. -/
theorem Covered.clean {fs : Files} (htree : IsTree fs) {source : Path} (hclean : Clean source)
    {deep : Bool} {file : Path} (h : Covered fs source deep file) : Clean file := by
  obtain ⟨above, stem, hholds, rfl⟩ := (covered_iff_holds htree).mp h
  intro hdot
  cases List.mem_append.mp hdot with
  | inl hsource => exact hclean hsource
  | inr hnames => exact (hholds.plain htree "." hnames).1 rfl

/-- The page of a source has its name up to the suffix. -/
theorem withSuffix_within (base : Path) (above : List String) {stem : String} (h : stem ≠ "") :
    (within base (sourceNames above stem)).withSuffix outputSuffix
      = within base (pageNames above stem) := by
  have hlast : (base.parts ++ sourceNames above stem).getLast? = some (stem ++ sourceSuffix) := by
    rw [sourceNames, ← List.append_assoc, List.getLast?_concat]
  have hfront : (base.parts ++ sourceNames above stem).dropLast = base.parts ++ above := by
    rw [sourceNames, ← List.append_assoc, List.dropLast_concat]
  unfold Path.withSuffix within
  rw [hlast]
  simp only [hfront, splitSuffix_source h, pageNames, List.append_assoc]

/-- **The target of a source** has the same names below the output, up to the
suffix. -/
theorem targetOf_within (source : Path) (output : Option Path) (above : List String) {stem : String}
    (h : stem ≠ "") :
    targetOf source output (within source (sourceNames above stem))
      = within (output.getD source) (pageNames above stem) := by
  cases output with
  | none => exact withSuffix_within source above h
  | some out =>
    have hmoved : out.join ((within source (sourceNames above stem)).relativeTo source)
        = within out (sourceNames above stem) := by
      simp [Path.join, Path.relativeTo, within]
    show (out.join _).withSuffix outputSuffix = _
    rw [hmoved]
    exact withSuffix_within out above h

/-- Sources with one page are one source. -/
theorem pageNames_injective {above above' : List String} {stem stem' : String}
    (h : pageNames above stem = pageNames above' stem') : above = above' ∧ stem = stem' := by
  obtain ⟨habove, hlast⟩ := List.append_inj' h rfl
  refine ⟨habove, ?_⟩
  have hchars := congrArg String.toList (List.singleton_inj.mp hlast)
  rw [String.toList_append, String.toList_append] at hchars
  exact String.toList_injective (List.append_cancel_right hchars)

/-- **Distinct sources have targets at distinct locations.** -/
theorem eq_of_placeOf_target {fs : Files} (htree : IsTree fs) {source : Path} {deep : Bool}
    {file file' : Path} (hfile : Covered fs source deep file) (hfile' : Covered fs source deep file')
    {output : Option Path}
    (h : fs.placeOf (targetOf source output file) = fs.placeOf (targetOf source output file')) :
    file = file' := by
  obtain ⟨above, stem, hholds, rfl⟩ := (covered_iff_holds htree).mp hfile
  obtain ⟨above', stem', hholds', rfl⟩ := (covered_iff_holds htree).mp hfile'
  rw [targetOf_within source output above hholds.named,
    targetOf_within source output above' hholds'.named,
    placeOf_within htree.unlinked _ (hholds.plain_page htree),
    placeOf_within htree.unlinked _ (hholds'.plain_page htree)] at h
  obtain ⟨rfl, rfl⟩ := pageNames_injective (List.append_cancel_left h)
  rfl

/-! ## §7. The list of sources. -/

/-- A file that is listed is an entry below. -/
theorem fileBelow?_eq_some {p q : Path} {loc : Location} {deep : Bool} {accept : String → Bool}
    {e : Location × FileEntry} (h : Files.fileBelow? p loc deep accept e = some q) :
    ∃ rest, e.1 = loc ++ rest ∧ q = within p rest := by
  obtain ⟨above, name, content, mtime, executable, rfl, -, -, rfl⟩ :=
    Files.fileBelow?_eq_some_iff.mp h
  exact ⟨above ++ [name], rfl, rfl⟩

section Listing

variable {fs : Files} (hdistinct : (fs.entries.map Prod.fst).Nodup) (source : Path) (deep : Bool)
  (accept : String → Bool)
include hdistinct

/-- No file is listed twice. -/
theorem nodup_filesBelow : (fs.filesBelow source deep accept).Nodup := by
  unfold Files.filesBelow
  rw [(Files.perm_sortPaths _).nodup_iff]
  -- two entries with one path have one location, and so are one entry
  have hentries : fs.entries.Nodup := List.Nodup.of_map Prod.fst hdistinct
  rw [List.Nodup, List.pairwise_filterMap]
  refine hentries.imp_of_mem ?_
  intro e e' he he' hne q hq q' hq' hsame
  obtain ⟨rest, hloc, rfl⟩ := fileBelow?_eq_some hq
  obtain ⟨rest', hloc', rfl⟩ := fileBelow?_eq_some hq'
  have hrest : rest = rest' := List.append_cancel_left (congrArg Path.parts hsame)
  have hfst : e.1 = e'.1 := by rw [hloc, hloc', hrest]
  exact hne (List.inj_on_of_nodup_map hdistinct he he' hfst)

/-- **Files are listed in the order of the parts of their paths.** -/
theorem filesBelow_sorted :
    (fs.filesBelow source deep accept).Pairwise fun a b => a.parts < b.parts := by
  have hnodup := nodup_filesBelow hdistinct source deep accept
  have hsorted := Files.sortPaths_sorted
    (fs.entries.filterMap (Files.fileBelow? source (fs.placeOf source) deep accept))
  refine (hsorted.and hnodup).imp_of_mem ?_
  intro a b ha hb hab
  obtain ⟨hle, hne⟩ := hab
  refine lt_of_le_of_ne hle fun hparts => hne ?_
  obtain ⟨e, -, he⟩ := List.mem_filterMap.mp ((Files.perm_sortPaths _).mem_iff.mp ha)
  obtain ⟨e', -, he'⟩ := List.mem_filterMap.mp ((Files.perm_sortPaths _).mem_iff.mp hb)
  obtain ⟨rest, -, rfl⟩ := fileBelow?_eq_some he
  obtain ⟨rest', -, rfl⟩ := fileBelow?_eq_some he'
  rw [List.append_cancel_left hparts]

end Listing

end Directory

end Offside
