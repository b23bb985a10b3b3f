/-
  Offside.Proofs.DirectoryWalk
  ────────────────────────────
  **WALKING DOWN A TREE THAT IS BEING CHANGED.**

  A directory is listed when the walk gets there, and by then others may have been
  made in it and pages written to it.  Since no source is touched while the others
  are worked on, it does not matter when a directory is listed: `walkDown_follows`
  says that a walk treats the sources that were there at the start, in their order,
  whatever is done with them.  What is new in a directory by then is never a source.

  A walk may get stuck (`Stuck`): it goes down too far, a directory may not be
  listed, or a path is too long to be looked at.  A walk that arrives has seen all
  that was there at the start (`stat_of_walkDown`).
-/
import Offside.Proofs.DirectoryTree
import Offside.Proofs.Walks

namespace Offside.Directory

open Compiler

/-! ## §1. Listing one directory. -/

/-- A name that is put in is one more name. -/
theorem mem_insertName {name other : String} {names : List String} :
    other ∈ Files.insertName name names ↔ other = name ∨ other ∈ names := by
  induction names with
  | nil => simp [Files.insertName]
  | cons first rest ih =>
    unfold Files.insertName
    split
    next => simp
    next =>
      split
      next hsame => simp [beq_iff_eq.mp hsame]
      next => simp [ih, or_left_comm]

/-- A name is put in where it belongs. -/
theorem insertName_sorted {name : String} {names : List String} (h : names.Pairwise (· < ·)) :
    (Files.insertName name names).Pairwise (· < ·) := by
  induction names with
  | nil => exact List.pairwise_singleton _ _
  | cons first rest ih =>
    obtain ⟨hfirst, hrest⟩ := List.pairwise_cons.mp h
    unfold Files.insertName
    split
    next hlt =>
      refine List.pairwise_cons.mpr ⟨fun other hother => ?_, h⟩
      cases List.mem_cons.mp hother with
      | inl heq => exact heq ▸ hlt
      | inr hlater => exact lt_trans hlt (hfirst other hlater)
    next hge =>
      split
      next => exact h
      next hne =>
        have hlt : first < name :=
          lt_of_le_of_ne (not_lt.mp hge) fun heq => hne (beq_iff_eq.mpr heq.symm)
        refine List.pairwise_cons.mpr ⟨fun other hother => ?_, ih hrest⟩
        cases mem_insertName.mp hother with
        | inl heq => exact heq ▸ hlt
        | inr hold => exact hfirst other hold

/-- A name is in a directory if its location is one step further. -/
theorem nameIn?_eq_some_iff {folder loc : Location} {name : String} :
    Files.nameIn? folder loc = some name ↔ loc = folder ++ [name] := by
  unfold Files.nameIn?
  rw [Location.same_eq_beq]
  constructor
  · intro h
    split at h
    next hfolder =>
      rw [← beq_iff_eq.mp hfolder]
      exact (List.dropLast_append_getLast? name h).symm
    next => exact absurd h (by simp)
  · rintro rfl
    simp

/-- **The names in a directory are sorted**, and none is listed twice. -/
theorem namesAt_sorted (fs : Files) (loc : Location) : (fs.namesAt loc).Pairwise (· < ·) := by
  unfold Files.namesAt
  induction (fs.entries.map (·.1) ++ fs.links.map (·.1)).filterMap (Files.nameIn? loc) with
  | nil => exact List.Pairwise.nil
  | cons name rest ih => exact insertName_sorted ih

/-- **The names in a directory** are those of what is there. -/
theorem mem_namesAt {fs : Files} (hlinks : fs.links = []) {loc : Location} {name : String} :
    name ∈ fs.namesAt loc ↔ (fs.at? (loc ++ [name])).isSome := by
  have hfold : ∀ names : List String, name ∈ names.foldr Files.insertName [] ↔ name ∈ names := by
    intro names
    induction names with
    | nil => simp
    | cons first rest ih => rw [List.foldr_cons, mem_insertName, ih, List.mem_cons]
  unfold Files.namesAt
  rw [hfold, hlinks, List.map_nil, List.append_nil, List.mem_filterMap,
    Files.at?_of_ne_nil (by simp), Option.isSome_map, List.find?_isSome]
  simp only [List.mem_map, nameIn?_eq_some_iff, beq_iff_eq]
  constructor
  · rintro ⟨loc', ⟨e, he, rfl⟩, hloc⟩
    exact ⟨e, he, hloc⟩
  · rintro ⟨e, he, hloc⟩
    exact ⟨e.1, ⟨e, he, rfl⟩, hloc⟩

/-- A directory is listed, unless it may not be. -/
theorem list_of_stat {fs : Files} {folder : Path} (h : fs.stat folder = .ok .directory) :
    fs.list folder
      = if fs.sealed.contains (fs.placeOf folder) then
          .error (.refused .denied folder.toString)
        else .ok (fs.namesAt (fs.placeOf folder)) := by
  obtain ⟨hlocate, hat⟩ := Files.stat_eq_ok h
  unfold Files.list
  simp only [hlocate, hat]

/-- **A name in a directory** leads to what is there, unless its path is too long; with
a null character in it, it leads nowhere. -/
theorem look_child {fs : Files} (hlinks : fs.links = []) {folder : Path}
    (hfolder : fs.stat folder = .ok .directory) (name : String) :
    ((folder.child name).hasNull = true ∧ fs.look (folder.child name) = .ok none)
      ∨ fs.look (folder.child name) = .ok (fs.at? (fs.placeOf (folder.child name)))
      ∨ ((Files.maxPathBytes < (folder.child name).toString.utf8ByteSize
            ∨ Files.maxNameBytes < name.utf8ByteSize)
          ∧ fs.look (folder.child name)
            = .error (.refused .nameTooLong (folder.child name).toString)) := by
  have hdirect := Files.direct_of_unlinked hlinks
  obtain ⟨hlocate, hat⟩ := Files.stat_eq_ok hfolder
  obtain ⟨-, -, hwalk⟩ := (hdirect folder).locate_eq_ok_iff.mp hlocate
  -- the directory has been reached, so only the last name can still be too long
  have hlast : fs.walk (fs.origin (folder.child name)) (folder.child name).parts
      = if Files.maxNameBytes < name.utf8ByteSize then .error .nameTooLong
        else .ok (fs.placeOf (folder.child name)) := by
    have hplace : fs.placeOf (folder.child name) = Files.hop (fs.placeOf folder) name :=
      (hdirect (folder.child name)).placeOf_concat
    show fs.walk (fs.origin folder) (folder.parts ++ [name]) = _
    rw [Files.walk_append hwalk, Files.walk_cons, hat, hplace]
    rfl
  cases hnull : (folder.child name).hasNull with
  | true => exact .inl ⟨rfl, Files.look_of_hasNull hnull⟩
  | false =>
    right
    have hreach : fs.locate (folder.child name)
        = if Files.maxPathBytes < (folder.child name).toString.utf8ByteSize
            ∨ Files.maxNameBytes < name.utf8ByteSize then
            .error (.refused .nameTooLong (folder.child name).toString)
          else .ok (fs.placeOf (folder.child name)) := by
      unfold Files.locate Files.reach
      rw [if_neg (by simp [hnull]), (hdirect (folder.child name)).route, hlast]
      by_cases hlong : Files.maxPathBytes < (folder.child name).toString.utf8ByteSize
      · simp [hlong]
      · by_cases hname : Files.maxNameBytes < name.utf8ByteSize <;> simp [hlong, hname]
    split at hreach
    next hlong => exact .inr ⟨hlong, Files.look_of_tooLong hreach⟩
    next => exact .inl (Files.look_of_locate hreach)

/-! ## §2. The sources below some names. -/

/-- The listed sources that have these names in front. -/
def listedUnder (files : Files) (source : Path) (deep : Bool) (names : List String) : List Path :=
  (files.filesBelow source deep isSourceName).filter fun file =>
    (source.parts ++ names).isPrefixOf file.parts

section Listing

variable {fs : Files} {source : Path} {deep : Bool} {names : List String} {file : Path}

/-- The files listed under some names are those sources whose names begin with them. -/
theorem mem_listedUnder (htree : IsTree fs) :
    file ∈ listedUnder fs source deep names ↔
      ∃ above stem, Holds fs source deep above stem
        ∧ file = within source (sourceNames above stem) ∧ names <+: sourceNames above stem := by
  unfold listedUnder
  rw [List.mem_filter, mem_filesBelow, covered_iff_holds htree,
    List.isPrefixOf_iff_prefix]
  constructor
  · intro h
    obtain ⟨⟨above, stem, hholds, rfl⟩, hfront⟩ := h
    exact ⟨above, stem, hholds, rfl, (List.prefix_append_right_inj _).mp hfront⟩
  · intro h
    obtain ⟨above, stem, hholds, rfl, hfront⟩ := h
    exact ⟨⟨above, stem, hholds, rfl⟩, (List.prefix_append_right_inj _).mpr hfront⟩

/-- They are sorted. -/
theorem listedUnder_sorted (htree : IsTree fs) (source : Path) (deep : Bool) (names : List String) :
    (listedUnder fs source deep names).Pairwise fun a b => a.parts < b.parts :=
  (filesBelow_sorted htree.distinct source deep isSourceName).filter _

theorem nodup_of_sorted {files : List Path} (h : files.Pairwise fun a b => a.parts < b.parts) :
    files.Nodup := by
  refine h.imp ?_
  intro a b hlt heq
  rw [heq] at hlt
  exact lt_irrefl _ hlt

/-- Sorted lists of the same files are the same. -/
theorem eq_of_sorted {files files' : List Path} (h : files.Pairwise fun a b => a.parts < b.parts)
    (h' : files'.Pairwise fun a b => a.parts < b.parts)
    (hmem : ∀ file, file ∈ files ↔ file ∈ files') : files = files' := by
  refine List.Perm.eq_of_pairwise ?_ h h'
    ((List.perm_ext_iff_of_nodup (nodup_of_sorted h) (nodup_of_sorted h')).mpr hmem)
  intro a b _ _ hab hba
  exact absurd hab (lt_asymm hba)

/-- Nothing is listed below a name that no file can have. -/
theorem listedUnder_of_hasNull (htree : IsTree fs) (hnull : (within source names).hasNull = true)
    (hsource : source.hasNull = false) : listedUnder fs source deep names = [] := by
  rw [List.eq_nil_iff_forall_not_mem]
  intro file hfile
  obtain ⟨above, stem, hholds, -, more, hmore⟩ := (mem_listedUnder htree).mp hfile
  obtain ⟨version, hversion⟩ := Option.isSome_iff_exists.mp hholds.there
  have hnames : ∀ name ∈ names, name.toList.contains '\x00' = false := by
    intro name hname
    unfold Files.version? at hversion
    split at hversion
    next hat =>
      refine htree.named _ (mem_of_at?_eq_some ?_ hat) name ?_
      · simp [sourceNames]
      · rw [← hmore]
        simp [hname]
    next => exact absurd hversion (by simp)
  simp only [Path.hasNull, within, List.any_append, Bool.or_eq_true, List.any_eq_true] at hnull hsource
  rcases hnull with ⟨name, hname, hbad⟩ | ⟨name, hname, hbad⟩
  · exact absurd hbad (by simpa using List.any_eq_false.mp hsource name hname)
  · rw [hnames name hname] at hbad
    exact absurd hbad (by simp)

/-- What has names in front of it goes through a directory, unless the names are all
of its own. -/
theorem listedUnder_cases (htree : IsTree fs) (h : file ∈ listedUnder fs source deep names) :
    (∃ name, file ∈ listedUnder fs source deep (names ++ [name])
        ∧ fs.at? (fs.placeOf source ++ names) = some .directory
        ∧ (fs.at? (fs.placeOf source ++ (names ++ [name]))).isSome)
      ∨ ((∃ above stem, stem ≠ "" ∧ names = sourceNames above stem)
        ∧ (fs.version? (fs.placeOf source ++ names)).isSome ∧ file = within source names) := by
  obtain ⟨above, stem, hholds, rfl, more, hmore⟩ := (mem_listedUnder htree).mp h
  cases more with
  | nil =>
    rw [List.append_nil] at hmore
    exact .inr ⟨⟨above, stem, hholds.named, hmore⟩, hmore ▸ hholds.there, by rw [hmore]⟩
  | cons name more =>
    obtain ⟨version, hversion⟩ := Option.isSome_iff_exists.mp hholds.there
    obtain ⟨entry, hentry⟩ :
        ∃ entry, fs.at? (fs.placeOf source ++ sourceNames above stem) = some entry := by
      unfold Files.version? at hversion
      split at hversion
      next hat => exact ⟨_, hat⟩
      next => exact absurd hversion (by simp)
    refine .inl ⟨name, ?_, ?_, ?_⟩
    · refine (mem_listedUnder htree).mpr ⟨above, stem, hholds, rfl, more, ?_⟩
      rw [List.append_assoc]
      exact hmore
    · have hbelow : fs.at? ((fs.placeOf source ++ names) ++ name :: more) = some entry := by
        rw [List.append_assoc, hmore]
        exact hentry
      exact directory_of_below htree (by simp) hbelow
    · -- the next name is the source itself or a directory above it
      by_cases hlast : more = []
      · rw [hlast] at hmore
        rw [hmore, hentry]
        rfl
      · have hdirectory : fs.at? (fs.placeOf source ++ (names ++ [name])) = some .directory := by
          apply directory_of_below htree hlast
          rw [List.append_assoc, List.append_assoc, List.singleton_append, hmore]
          exact hentry
        rw [hdirectory]
        rfl

/-- **The sources below a directory** are those below its names, one name after the
other. -/
theorem listedUnder_eq_flatMap (htree : IsTree fs) {children : List String}
    (hsorted : children.Pairwise (· < ·))
    (hall : ∀ file ∈ listedUnder fs source deep names,
      ∃ name ∈ children, file ∈ listedUnder fs source deep (names ++ [name])) :
    listedUnder fs source deep names
      = children.flatMap fun name => listedUnder fs source deep (names ++ [name]) := by
  have hleft := listedUnder_sorted htree source deep names
  have hright : (children.flatMap fun name => listedUnder fs source deep (names ++ [name])).Pairwise
      fun a b => a.parts < b.parts := by
    refine List.pairwise_flatMap.mpr
      ⟨fun name _ => listedUnder_sorted htree source deep _, hsorted.imp ?_⟩
    intro a b hlt x hx y hy
    -- up to the two names the paths are the same
    obtain ⟨above, stem, -, rfl, more, hmore⟩ := (mem_listedUnder htree).mp hx
    obtain ⟨above', stem', -, rfl, more', hmore'⟩ := (mem_listedUnder htree).mp hy
    show source.parts ++ sourceNames above stem < source.parts ++ sourceNames above' stem'
    rw [← hmore, ← hmore', List.append_assoc, List.append_assoc]
    exact List.append_left_lt (List.append_left_lt (List.cons_lt_cons_iff.mpr (.inl hlt)))
  refine eq_of_sorted hleft hright fun file => ?_
  rw [List.mem_flatMap]
  constructor
  · exact hall file
  · intro h
    obtain ⟨name, -, hfile⟩ := h
    obtain ⟨above, stem, hholds, rfl, hfront⟩ := (mem_listedUnder htree).mp hfile
    exact (mem_listedUnder htree).mpr
      ⟨above, stem, hholds, rfl, (List.prefix_append names [name]).trans hfront⟩

end Listing

/-- What was there is still there. -/
theorem isSome_of_kept {made written : Location → Prop} {a b : Files} (h : Files.Kept made written a b)
    {loc : Location} (hsome : (a.at? loc).isSome) : (b.at? loc).isSome := by
  rcases h.entry loc with hsame | ⟨-, -, hdirectory⟩ | ⟨-, -, hfile⟩
  · rw [hsame]
    exact hsome
  · rw [hdirectory]
    rfl
  · cases hat : b.at? loc with
    | none => exact absurd (by simp [Files.version?, hat]) hfile
    | some entry => rfl

/-- The names of a source end at a spot for one. -/
theorem sourceSpot_sourceNames (loc : Location) (above : List String) {stem : String}
    (h : stem ≠ "") : SourceSpot (loc ++ sourceNames above stem) := by
  unfold SourceSpot sourceNames
  rw [← List.append_assoc, List.getLast?_concat]
  exact isSourceName_iff.mpr ⟨stem, h, rfl⟩

/-! ## §3. A store in the middle of a batch. -/

/-- What a batch has done to the store: directories were made on the way to targets,
and no file was written but targets. -/
def WorkedOn (start : Files) (source : Path) (output : Option Path) (deep : Bool)
    (files : Files) : Prop :=
  Files.Kept
    (fun loc => ∃ file, Covered start source deep file
      ∧ start.OnWay (targetOf source output file).parent loc)
    (fun loc => ∃ file, Covered start source deep file
      ∧ loc = start.placeOf (targetOf source output file)) start files

namespace WorkedOn

section Listed

variable {start files : Files} {source : Path} {output : Option Path} {deep : Bool}
  {names : List String} {file : Path}

/-- Pages are no sources, so no source was touched. -/
theorem version?_eq (hlinks : start.links = []) (h : WorkedOn start source output deep files)
    {loc : Location}
    (hloc : SourceSpot loc) : files.version? loc = start.version? loc := by
  apply h.version?
  intro hwritten
  obtain ⟨file, hcovered, rfl⟩ := hwritten
  exact hcovered.not_sourceSpot_target hlinks output hloc

variable (htree : IsTree start) (h : WorkedOn start source output deep files)
include htree h

theorem links_eq : files.links = [] := by
  rw [h.ground]
  exact htree.unlinked

/-- What is there now has names that lead down, wherever it comes from. -/
theorem plain_of_isSome {rest : Location} (hsome : (files.at? (start.placeOf source ++ rest)).isSome) :
    Plain rest := by
  have hplain : Plain (start.placeOf source ++ rest) → Plain rest :=
    fun hall name hname => hall name (List.mem_append_right _ hname)
  have hplace : ∀ p, Plain (start.placeOf p) := plain_placeOf htree.unlinked htree.home
  rcases h.entry (start.placeOf source ++ rest) with
    hsame | ⟨⟨file, -, n, hloc⟩, -⟩ | ⟨⟨file, -, hloc⟩, -⟩
  · rw [hsame] at hsome
    obtain ⟨entry, hentry⟩ := Option.isSome_iff_exists.mp hsome
    exact plain_of_at?_eq_some htree hentry
  · exact hplain (hloc ▸ hplace _)
  · exact hplain (hloc ▸ hplace _)

/-- What is listed below some names is below a directory that is there now, or it is
a file that is there now. -/
theorem listed_cases (hfile : file ∈ listedUnder start source deep names) :
    (∃ name, file ∈ listedUnder start source deep (names ++ [name])
        ∧ files.at? (start.placeOf source ++ names) = some .directory
        ∧ name ∈ files.namesAt (start.placeOf source ++ names))
      ∨ ((∃ above stem, stem ≠ "" ∧ names = sourceNames above stem)
        ∧ (files.version? (start.placeOf source ++ names)).isSome
        ∧ file = within source names) := by
  rcases listedUnder_cases htree hfile with
    ⟨name, hchild, hdirectory, hthere⟩ | ⟨⟨above, stem, hne, rfl⟩, hthere, hfile⟩
  · refine .inl ⟨name, hchild, h.directory hdirectory, (mem_namesAt (h.links_eq htree)).mpr ?_⟩
    rw [List.append_assoc]
    exact isSome_of_kept h hthere
  · rw [← h.version?_eq htree.unlinked (sourceSpot_sourceNames _ above hne)] at hthere
    exact .inr ⟨⟨above, stem, hne, rfl⟩, hthere, hfile⟩

/-- A directory is no source, so what is listed below it is below one of its
names. -/
theorem exists_child (hat : files.at? (start.placeOf source ++ names) = some .directory)
    (hfile : file ∈ listedUnder start source deep names) :
    ∃ name ∈ files.namesAt (start.placeOf source ++ names),
      file ∈ listedUnder start source deep (names ++ [name]) := by
  rcases h.listed_cases htree hfile with ⟨name, hchild, -, hname⟩ | ⟨-, hthere, -⟩
  · exact ⟨name, hname, hchild⟩
  · unfold Files.version? at hthere
    rw [hat] at hthere
    exact absurd hthere (by simp)

/-- Nothing is listed below a directory that is not gone down into. -/
theorem listed_of_shallow {name : String}
    (hat : files.at? (start.placeOf source ++ [name]) = some .directory)
    (hdeep : deep ≠ true) : listedUnder start source deep [name] = [] := by
  rw [List.eq_nil_iff_forall_not_mem]
  intro file hfile
  obtain ⟨child, -, hchild⟩ := h.exists_child htree hat hfile
  obtain ⟨above, stem, hholds, -, hfront⟩ := (mem_listedUnder htree).mp hchild
  have hlength := hfront.length_le
  rw [hholds.reached.resolve_left hdeep] at hlength
  exact absurd hlength (by simp [sourceNames])

/-- A source that is there now is listed, and nothing else is below its names. -/
theorem listed_of_source {above : List String} {stem : String} (hne : stem ≠ "")
    (hreach : deep = true ∨ above = []) {content : ByteArray} {mtime : Binary64} {executable : Bool}
    (hat : files.at? (start.placeOf source ++ sourceNames above stem)
      = some (.file content mtime executable)) :
    listedUnder start source deep (sourceNames above stem)
      = [within source (sourceNames above stem)] := by
  refine eq_of_sorted (listedUnder_sorted htree source deep _) (List.pairwise_singleton _ _)
    fun file => ?_
  rw [List.mem_singleton]
  constructor
  · intro hfile
    rcases h.listed_cases htree hfile with ⟨-, -, hdirectory, -⟩ | ⟨-, -, hfile⟩
    · exact absurd hdirectory (by simp [hat])
    · exact hfile
  · intro hfile
    refine (mem_listedUnder htree).mpr
      ⟨above, stem, ⟨hne, hreach, ?_⟩, hfile, List.prefix_refl _⟩
    rw [← h.version?_eq htree.unlinked (sourceSpot_sourceNames _ above hne)]
    unfold Files.version?
    rw [hat]
    rfl

/-- Nothing is listed below a file that is no source. -/
theorem listed_of_other {above : List String} {name : String} (hname : isSourceName name ≠ true)
    {content : ByteArray} {mtime : Binary64} {executable : Bool}
    (hat : files.at? (start.placeOf source ++ (above ++ [name]))
      = some (.file content mtime executable)) :
    listedUnder start source deep (above ++ [name]) = [] := by
  rw [List.eq_nil_iff_forall_not_mem]
  intro file hfile
  rcases h.listed_cases htree hfile with
    ⟨-, -, hdirectory, -⟩ | ⟨⟨dirs, stem, hne, hnames⟩, -, -⟩
  · exact absurd hdirectory (by simp [hat])
  · have hlast := (List.append_inj' hnames rfl).2
    exact hname (isSourceName_iff.mpr ⟨stem, hne, List.singleton_inj.mp hlast⟩)

end Listed

/-- What has been done so far, and the work of one more file. -/
theorem trans {start files after : Files} {source : Path} {output : Option Path} {deep : Bool}
    {file : Path} (h : WorkedOn start source output deep files)
    (hcovered : Covered start source deep file)
    (hkept : Files.Kept (files.OnWay (targetOf source output file).parent)
      (· = files.placeOf (targetOf source output file)) files after) :
    WorkedOn start source output deep after := by
  refine Files.Kept.trans h (hkept.mono ?_ ?_)
  · intro loc hloc
    rw [Files.onWay_eq_of_ground h.ground] at hloc
    exact ⟨file, hcovered, hloc⟩
  · intro loc hloc
    rw [Files.placeOf_eq_of_ground h.ground] at hloc
    exact ⟨file, hcovered, hloc⟩

end WorkedOn

/-- Names below a directory that lead to something at the start of a batch, or may do so
in the middle of it, since they are on the way to a page. -/
def InReach (fs : Files) (source : Path) (output : Option Path) (deep : Bool)
    (names : List String) : Prop :=
  (fs.at? (fs.placeOf source ++ names)).isSome
    ∨ ∃ file, Covered fs source deep file
        ∧ fs.OnWay (targetOf source output file) (fs.placeOf source ++ names)

/-- The locations on the way along a path, its end included. -/
def waysTo (fs : Files) (p : Path) : List Location :=
  (List.range (p.parts.length + 1)).map fun n => fs.placeOf ⟨p.anchor, p.parts.take n⟩

theorem mem_waysTo {fs : Files} {p : Path} {loc : Location} (h : fs.OnWay p loc) :
    loc ∈ waysTo fs p := by
  obtain ⟨n, rfl⟩ := h
  refine Files.forall_take (P := fun q => fs.placeOf q ∈ waysTo fs p) (fun m hm => ?_) n
  exact List.mem_map.mpr ⟨m, List.mem_range.mpr (by omega), rfl⟩

theorem onWay_of_mem {fs : Files} {p : Path} {loc : Location} (h : loc ∈ waysTo fs p) :
    fs.OnWay p loc := by
  obtain ⟨n, -, rfl⟩ := List.mem_map.mp h
  exact ⟨n, rfl⟩

theorem isSome_of_mem {fs : Files} {loc : Location} (h : loc ∈ fs.entries.map Prod.fst) :
    (fs.at? loc).isSome := by
  by_cases hnil : loc = []
  · simp [hnil, Files.at?]
  · obtain ⟨e, he, rfl⟩ := List.mem_map.mp h
    rw [Files.at?_of_ne_nil hnil, Option.isSome_map, List.find?_isSome]
    exact ⟨e, he, by simp⟩

/-- The locations that are in reach of a batch, among others. -/
def reaches (fs : Files) (source : Path) (output : Option Path) (deep : Bool) : List Location :=
  [] :: (fs.entries.map Prod.fst
    ++ (fs.entries.filterMap (Files.fileBelow? source (fs.placeOf source) deep isSourceName)).flatMap
        fun file => waysTo fs (targetOf source output file))

/-- What a batch may reach is what is there, and the ways to its targets. -/
theorem mem_reaches {fs : Files} {source : Path} {output : Option Path} {deep : Bool}
    {loc : Location} :
    loc ∈ reaches fs source output deep ↔
      (fs.at? loc).isSome ∨ ∃ file, Covered fs source deep file
        ∧ fs.OnWay (targetOf source output file) loc := by
  simp only [reaches, List.mem_cons, List.mem_append, List.mem_flatMap, ← covered_iff]
  constructor
  · rintro (rfl | hentry | ⟨file, hcovered, hway⟩)
    · exact .inl (by simp [Files.at?])
    · exact .inl (isSome_of_mem hentry)
    · exact .inr ⟨file, hcovered, onWay_of_mem hway⟩
  · rintro (hthere | ⟨file, hcovered, hway⟩)
    · by_cases hnil : loc = []
      · exact .inl hnil
      · obtain ⟨entry, hentry⟩ := Option.isSome_iff_exists.mp hthere
        exact .inr (.inl (List.mem_map.mpr ⟨_, mem_of_at?_eq_some hnil hentry, rfl⟩))
    · exact .inr (.inr ⟨file, hcovered, mem_waysTo hway⟩)

/-- **What is in reach can be listed**, so that something about it can be found out. -/
theorem forall_inReach {fs : Files} {source : Path} {output : Option Path} {deep : Bool}
    {P : List String → Prop} :
    (∀ names, InReach fs source output deep names → P names) ↔
      ∀ loc ∈ reaches fs source output deep, fs.placeOf source <+: loc →
        P (loc.drop (fs.placeOf source).length) := by
  constructor
  · rintro h loc hloc ⟨names, rfl⟩
    rw [List.drop_left]
    exact h names (mem_reaches.mp hloc)
  · intro h names hnames
    have hall := h _ (mem_reaches.mpr hnames) (List.prefix_append _ _)
    rwa [List.drop_left] at hall

instance (fs : Files) (source : Path) (output : Option Path) (deep : Bool)
    (P : List String → Prop) [DecidablePred P] :
    Decidable (∀ names, InReach fs source output deep names → P names) :=
  decidable_of_iff _ forall_inReach.symm

/-- Whatever is there in the middle of a batch was in reach from the start. -/
theorem WorkedOn.inReach {start files : Files} {source : Path} {output : Option Path} {deep : Bool}
    (h : WorkedOn start source output deep files) {names : List String}
    (hthere : (files.at? (start.placeOf source ++ names)).isSome) :
    InReach start source output deep names := by
  rcases h.entry (start.placeOf source ++ names) with
    hsame | ⟨⟨file, hcovered, hway⟩, -⟩ | ⟨⟨file, hcovered, hplace⟩, -⟩
  · rw [hsame] at hthere
    exact .inl hthere
  · exact .inr ⟨file, hcovered, Files.OnWay.of_dropLast hway⟩
  · rw [InReach, hplace]
    exact .inr ⟨file, hcovered, Files.onWay_placeOf _ _⟩

/-! ## §4. Walking down. -/

/-- Why a walk gets stuck, in a store in the middle of a batch: there is a directory too
far down, or one that may not be listed, or something whose path is too long. -/
inductive Stuck (start : Files) (source : Path) (output : Option Path) (deep : Bool)
    (levels : Nat) : FileError → Prop where
  | deep {files : Files} {names : List String} (worked : WorkedOn start source output deep files)
      (there : files.at? (start.placeOf source ++ names) = some .directory)
      (far : levels ≤ names.length) : Stuck start source output deep levels .tooDeep
  | shut {files : Files} {names : List String} (worked : WorkedOn start source output deep files)
      (there : files.at? (start.placeOf source ++ names) = some .directory)
      (sealed : start.sealed.contains (start.placeOf source ++ names) = true) :
      Stuck start source output deep levels (.refused .denied (within source names).toString)
  | long {files : Files} {names : List String} (worked : WorkedOn start source output deep files)
      (there : (files.at? (start.placeOf source ++ names)).isSome)
      (tooLong : Files.maxPathBytes < (within source names).toString.utf8ByteSize
        ∨ ∃ name ∈ names, Files.maxNameBytes < name.utf8ByteSize) :
      Stuck start source output deep levels (.refused .nameTooLong (within source names).toString)

theorem child_within (source : Path) (above : List String) (name : String) :
    (within source above).child name = within source (above ++ [name]) := by
  simp [Path.child, within]

theorem within_nil (source : Path) : within source [] = source := by
  simp [within]

theorem map_within_nil (output : Option Path) : output.map (within · []) = output := by
  simp [within_nil]

theorem map_child (output : Option Path) (above : List String) (name : String) :
    (output.map (within · above)).map (fun out => out.child name)
      = output.map (within · (above ++ [name])) := by
  cases output with
  | none => rfl
  | some out => exact congrArg some (child_within out above name)

/-- What is in a tree has names without null characters. -/
theorem hasNull_within {fs : Files} (htree : IsTree fs) {source : Path} {entry : FileEntry}
    (hsource : fs.stat source = .ok entry) {names : List String} {entry' : FileEntry}
    (hat : fs.at? (fs.placeOf source ++ names) = some entry') :
    (within source names).hasNull = false := by
  have hnull := Files.hasNull_of_stat hsource
  simp only [Path.hasNull, within, List.any_append, Bool.or_eq_false_iff] at hnull ⊢
  refine ⟨hnull, List.any_eq_false.mpr fun name hname => ?_⟩
  have hmem := mem_of_at?_eq_some (by
    intro hnil
    rw [(List.append_eq_nil_iff.mp hnil).2] at hname
    exact absurd hname (by simp)) hat
  simpa using htree.named _ hmem name (List.mem_append_right _ hname)

/-- The same names lead from the output to the target. -/
theorem targetAt_within (source : Path) (output : Option Path) (above : List String) {stem : String}
    (h : stem ≠ "") :
    Walk.targetAt (within source above) (output.map (within · above)) (stem ++ sourceSuffix)
      = targetOf source output (within source (sourceNames above stem)) := by
  rw [targetOf_within source output above h]
  cases output with
  | none =>
    show ((within source above).child _).withSuffix outputSuffix = _
    rw [child_within]
    exact withSuffix_within source above h
  | some out =>
    show ((within out above).child _).withSuffix outputSuffix = _
    rw [child_within]
    exact withSuffix_within out above h

section Walk

variable {β : Type}

/-- Treat a file of a directory, with the target that it has there. -/
def treatIn (source : Path) (output : Option Path) (treat : β → Path → Path → Action β) (done : β)
    (file : Path) : Action β :=
  treat done file (targetOf source output file)

/-- **Part of a walk follows a list of sources**: it does what treating them one after the
other does, or the walk gets stuck in it. -/
def Follows (start : Files) (source : Path) (output : Option Path) (deep : Bool) (levels : Nat)
    (treat : β → Path → Path → Action β) (s : Session) (done : β) (part : Action β)
    (files : List Path) : Prop :=
  s.run part = s.run (files.foldlM (treatIn source output treat) done)
    ∨ ∃ e s', s.run part = (.error (.files e), s') ∧ Stuck start source output deep levels e

/-- Part of a walk that arrives has treated the sources. -/
theorem Follows.run_eq {start : Files} {source : Path} {output : Option Path} {deep : Bool}
    {levels : Nat} {treat : β → Path → Path → Action β} {s s' : Session} {done done' : β}
    {part : Action β} {files : List Path}
    (h : Follows start source output deep levels treat s done part files)
    (hrun : s.run part = (.ok done', s')) :
    s.run (files.foldlM (treatIn source output treat) done) = (.ok done', s') := by
  rcases h with hsame | ⟨e, s'', hstuck, -⟩
  · rw [← hsame, hrun]
  · rw [hrun] at hstuck
    exact absurd (congrArg Prod.fst hstuck) (by simp)

/-- The sources of a batch are treated one by one.  Something holds all along that says
what has been done to the store, and no directory goes away. -/
structure Treats (start : Files) (source : Path) (output : Option Path) (deep : Bool)
    (treat : β → Path → Path → Action β) (holds : Session → β → Prop) : Prop where
  worked : ∀ {s done}, holds s done → WorkedOn start source output deep s.files
  step : ∀ {s s' done done' file}, Covered start source deep file → holds s done →
    s.run (treatIn source output treat done file) = (.ok done', s') → holds s' done'
  keeps : ∀ {s s' done done' file}, Covered start source deep file → holds s done →
    s.run (treatIn source output treat done file) = (.ok done', s') →
    Files.Kept (fun _ => True) (fun _ => True) s.files s'.files

/-- A directory can still be reached after a change that keeps all directories. -/
theorem stat_directory_of_kept {made written : Location → Prop} {a b : Files}
    (h : Files.Kept made written a b) {folder : Path} (hstat : a.stat folder = .ok .directory) :
    b.stat folder = .ok .directory := by
  obtain ⟨hlocate, hat⟩ := Files.stat_eq_ok hstat
  exact Files.stat_of_locate (h.locate hlocate) (h.directory hat)

/-- What can be reached below a directory after such a change, and was there before, could
be reached before. -/
theorem stat_of_kept {made written : Location → Prop} {a b : Files} {source : Path}
    (htree : IsTree a) (hsource : a.stat source = .ok .directory)
    (h : Files.Kept made written a b) {names : List String} {entry entry' : FileEntry}
    (hat : a.at? (a.placeOf source ++ names) = some entry)
    (hstat : b.stat (within source names) = .ok entry') :
    a.stat (within source names) = .ok entry := by
  have hlinks : b.links = [] := by
    rw [h.ground]
    exact htree.unlinked
  have hdirect := Files.direct_of_unlinked htree.unlinked
  have hdirect' := Files.direct_of_unlinked hlinks
  obtain ⟨hnull, hshort, hwalk⟩ :=
    (hdirect' _).locate_eq_ok_iff.mp (Files.stat_eq_ok hstat).1
  obtain ⟨-, -, hdown⟩ := (hdirect _).locate_eq_ok_iff.mp (Files.stat_eq_ok hsource).1
  have hplace : a.placeOf (within source names) = a.placeOf source ++ names :=
    placeOf_within htree.unlinked source (plain_of_at?_eq_some htree hat)
  refine Files.stat_of_locate ((hdirect _).locate_eq_ok_iff.mpr ⟨hnull, hshort, ?_⟩) hat
  rw [Files.placeOf_eq_of_ground h.ground, hplace, Files.origin_eq_of_ground h.ground] at hwalk
  -- the way to the directory was there before, and below it the tree leads on
  show a.walk (a.origin source) (source.parts ++ names) = _
  rw [Files.walk_append hdown]
  refine walk_of_kept htree h hat ?_
  rw [← Files.walk_append (h.walk hdown)]
  exact hwalk

namespace Treats

variable {start : Files} {source : Path} {output : Option Path} {deep : Bool}
  {treat : β → Path → Path → Action β} {holds : Session → β → Prop} {s s' : Session}
  {done done' : β}

/-- What holds all along holds after some of the sources, and the directories are still
there. -/
theorem run_sources (ht : Treats start source output deep treat holds) (files : List Path)
    (hcovered : ∀ file ∈ files, Covered start source deep file) (h : holds s done)
    (hrun : s.run (files.foldlM (treatIn source output treat) done) = (.ok done', s')) :
    holds s' done' ∧ Files.Kept (fun _ => True) (fun _ => True) s.files s'.files := by
  induction files generalizing s done with
  | nil =>
    injection hrun with hdone hs
    injection hdone with hdone
    rw [← hdone, ← hs]
    exact ⟨h, Files.Kept.refl _ _ _⟩
  | cons file rest ih =>
    rw [List.foldlM_cons] at hrun
    obtain ⟨done₁, s₁, hfirst, hrest⟩ := Session.ok_of_bind s hrun
    have hfile := hcovered file List.mem_cons_self
    obtain ⟨hlast, hkept⟩ := ih (fun f hf => hcovered f (List.mem_cons_of_mem _ hf))
      (ht.step hfile h hfirst) hrest
    exact ⟨hlast, (ht.keeps hfile h hfirst).trans hkept⟩

variable (ht : Treats start source output deep treat holds) (htree : IsTree start)
  (hnull : source.hasNull = false) (levels : Nat)
include ht htree hnull

/-- **One name**: whatever the store says of it now, what is treated is what is listed
below it, unless the walk gets stuck. -/
theorem visit_follows {above : List String} (hreach : deep = true ∨ above = []) {name : String}
    {down : Path → Option Path → β → Action β} (h : holds s done)
    (hfolder : s.files.stat (within source above) = .ok .directory)
    (hthere : (s.files.at? (start.placeOf source ++ (above ++ [name]))).isSome)
    (hdown : deep = true → s.files.stat (within source (above ++ [name])) = .ok .directory →
      Follows start source output deep levels treat s done
        (down (within source (above ++ [name])) (output.map (within · (above ++ [name]))) done)
        (listedUnder start source deep (above ++ [name]))) :
    Follows start source output deep levels treat s done
      (visit deep treat down (within source above) (output.map (within · above)) done name)
      (listedUnder start source deep (above ++ [name])) := by
  have hworked := ht.worked h
  have hlinks := hworked.links_eq htree
  have hname : Plain (above ++ [name]) := hworked.plain_of_isSome htree hthere
  have hplace : s.files.placeOf (within source (above ++ [name]))
      = start.placeOf source ++ (above ++ [name]) := by
    rw [placeOf_within hlinks source hname, Files.placeOf_eq_of_ground hworked.ground]
  unfold Follows
  rw [Walk.run_visit, child_within, map_child]
  have hcases := look_child hlinks hfolder name
  rw [child_within, hplace] at hcases
  rcases hcases with ⟨hbad, hlook⟩ | hlook | ⟨hlong, hlook⟩
  · -- nothing is there under a name that no entry can have
    left
    rw [hlook, listedUnder_of_hasNull htree hbad hnull]
    rfl
  · rw [hlook]
    obtain ⟨entry, hat⟩ := Option.isSome_iff_exists.mp hthere
    rw [hat] at hlook ⊢
    cases entry with
    | directory =>
      simp only
      by_cases hdeep : deep = true
      · rw [if_pos hdeep]
        exact hdown hdeep (Files.look_eq_ok_some hlook)
      · left
        have habove := hreach.resolve_left hdeep
        subst habove
        rw [if_neg hdeep, List.nil_append, hworked.listed_of_shallow htree hat hdeep]
        rfl
    | file content mtime executable =>
      left
      simp only
      by_cases hsource : isSourceName name = true
      · obtain ⟨stem, hne, rfl⟩ := isSourceName_iff.mp hsource
        have hone := hworked.listed_of_source htree hne hreach hat
        have htarget := targetAt_within source output above hne
        unfold sourceNames at hone htarget
        rw [if_pos hsource, hone, htarget, List.foldlM_cons]
        show s.run _ = s.run (_ >>= pure)
        rw [bind_pure]
        rfl
      · rw [if_neg hsource, hworked.listed_of_other htree hsource hat]
        rfl
  · -- the entry is there, but the path to it is too long to be looked at
    rw [hlook]
    refine .inr ⟨_, _, rfl, .long hworked hthere ?_⟩
    exact hlong.imp_right fun hname => ⟨name, by simp, hname⟩

/-- **The names of a directory**, one after the other. -/
theorem visits_follows {above : List String} (hreach : deep = true ∨ above = [])
    (names : List String) {down : Path → Option Path → β → Action β}
    (hdown : ∀ (s : Session) (done : β) (name : String), holds s done → deep = true →
      s.files.stat (within source (above ++ [name])) = .ok .directory →
      Plain (above ++ [name]) →
      Follows start source output deep levels treat s done
        (down (within source (above ++ [name])) (output.map (within · (above ++ [name]))) done)
        (listedUnder start source deep (above ++ [name])))
    (h : holds s done) (hfolder : s.files.stat (within source above) = .ok .directory)
    (hthere : ∀ name ∈ names, (s.files.at? (start.placeOf source ++ (above ++ [name]))).isSome) :
    Follows start source output deep levels treat s done
      (names.foldlM (visit deep treat down (within source above) (output.map (within · above))) done)
      (names.flatMap fun name => listedUnder start source deep (above ++ [name])) := by
  induction names generalizing s done with
  | nil => exact .inl rfl
  | cons name rest ih =>
    have hname := hthere name List.mem_cons_self
    have hvisit := ht.visit_follows htree hnull levels hreach h hfolder hname fun hdeep hstat =>
      hdown s done name h hdeep hstat ((ht.worked h).plain_of_isSome htree hname)
    unfold Follows
    rw [List.foldlM_cons, List.flatMap_cons, List.foldlM_append, Session.run_bind, Session.run_bind]
    rcases hvisit with hsame | ⟨e, s', hstuck, hwhy⟩
    · rw [hsame]
      rcases hrun : s.run ((listedUnder start source deep (above ++ [name])).foldlM
        (treatIn source output treat) done) with ⟨result, s'⟩
      cases result with
      | error e => exact .inl rfl
      | ok done' =>
        -- the work goes on, and what holds still holds
        obtain ⟨h', hkept⟩ := ht.run_sources _
          (fun file hfile => mem_filesBelow.mp (List.mem_filter.mp hfile).1) h hrun
        exact ih h' (stat_directory_of_kept hkept hfolder) fun other hother =>
          isSome_of_kept hkept (hthere other (List.mem_cons_of_mem _ hother))
    · rw [hstuck]
      exact .inr ⟨e, s', rfl, hwhy⟩

/-- **Walking down** treats the sources that were there at the start, unless the walk
gets stuck.  The induction is on the levels that are left. -/
theorem below_follows (room : Nat) (above : List String) (hreach : deep = true ∨ above = [])
    (hroom : above.length + room = levels) (hplain : Plain above) (h : holds s done)
    (hfolder : s.files.stat (within source above) = .ok .directory) :
    Follows start source output deep levels treat s done
      (walkDown deep treat room (within source above) (output.map (within · above)) done)
      (listedUnder start source deep above) := by
  have hworked := ht.worked h
  have hlinks := hworked.links_eq htree
  have hplace : s.files.placeOf (within source above) = start.placeOf source ++ above := by
    rw [placeOf_within hlinks source hplain, Files.placeOf_eq_of_ground hworked.ground]
  have hat : s.files.at? (start.placeOf source ++ above) = some .directory := by
    rw [← hplace]
    exact (Files.stat_eq_ok hfolder).2
  induction room generalizing above s done with
  | zero => exact .inr ⟨_, _, rfl, .deep hworked hat (by omega)⟩
  | succ room ih =>
    unfold Follows
    rw [Walk.run_walkDown, list_of_stat hfolder, hplace]
    by_cases hsealed : s.files.sealed.contains (start.placeOf source ++ above) = true
    · rw [if_pos hsealed]
      rw [hworked.ground] at hsealed
      exact .inr ⟨_, _, rfl, .shut hworked hat hsealed⟩
    · rw [if_neg hsealed, listedUnder_eq_flatMap htree (namesAt_sorted _ _)
        fun file hfile => hworked.exists_child htree hat hfile]
      refine ht.visits_follows htree hnull levels hreach _ ?_ h hfolder ?_
      · intro s' done' name h' hdeep hstat' hplain'
        have hworked' := ht.worked h'
        have hplace' : s'.files.placeOf (within source (above ++ [name]))
            = start.placeOf source ++ (above ++ [name]) := by
          rw [placeOf_within (hworked'.links_eq htree) source hplain',
            Files.placeOf_eq_of_ground hworked'.ground]
        refine ih (above ++ [name]) (.inl hdeep) (by simp; omega) hplain' h' hstat' hworked'
          (hworked'.links_eq htree) hplace' ?_
        rw [← hplace']
        exact (Files.stat_eq_ok hstat').2
      · intro name hname
        rw [← List.append_assoc]
        exact (mem_namesAt hlinks).mp hname

/-- **A walk** treats the sources that were there at the start, in their order, unless
it gets stuck. -/
theorem walkDown_follows (done : β) (h : holds s done)
    (hsource : start.stat source = .ok .directory) (levels : Nat) :
    Follows start source output deep levels treat s done
      (walkDown deep treat levels source output done)
      (start.filesBelow source deep isSourceName) := by
  have hall : listedUnder start source deep [] = start.filesBelow source deep isSourceName := by
    unfold listedUnder
    rw [List.filter_eq_self]
    intro file hfile
    obtain ⟨above, name, -, -, -, -, -, -, rfl⟩ := mem_filesBelow.mp hfile
    simp
  have hcases := ht.below_follows htree hnull levels levels [] (.inr rfl) (by simp)
    (fun name hname => absurd hname (by simp)) h
    (by rw [within_nil]; exact stat_directory_of_kept (ht.worked h) hsource)
  rwa [within_nil, map_within_nil, hall] at hcases

end Treats

/-! ## §5. A walk that arrives. -/

namespace Treats

variable {start : Files} {source : Path} {output : Option Path} {deep : Bool}
  {treat : β → Path → Path → Action β} {holds : Session → β → Prop} {s s' : Session}
  {done done' : β} (ht : Treats start source output deep treat holds) (htree : IsTree start)
  (hsource : start.stat source = .ok .directory) {levels : Nat}
include ht htree hsource

/-- Every name of a directory is taken up by a walk that arrives. -/
theorem exists_visit {above : List String} (hreach : deep = true ∨ above = []) {room : Nat}
    (hroom : above.length + (room + 1) = levels) (names : List String)
    (h : holds s done) (hfolder : s.files.stat (within source above) = .ok .directory)
    (hthere : ∀ name ∈ names, (s.files.at? (start.placeOf source ++ (above ++ [name]))).isSome)
    (hrun : s.run (names.foldlM (visit deep treat (walkDown deep treat room) (within source above)
      (output.map (within · above))) done) = (.ok done', s')) :
    ∀ name ∈ names, ∃ s₁ done₁ s₂ done₂, holds s₁ done₁
      ∧ s₁.files.stat (within source above) = .ok .directory
      ∧ (s₁.files.at? (start.placeOf source ++ (above ++ [name]))).isSome
      ∧ s₁.run (visit deep treat (walkDown deep treat room) (within source above)
          (output.map (within · above)) done₁ name) = (.ok done₂, s₂) := by
  have hnull := Files.hasNull_of_stat hsource
  induction names generalizing s done with
  | nil => exact fun name hname => absurd hname (by simp)
  | cons first rest ih =>
    rw [List.foldlM_cons] at hrun
    obtain ⟨done₁, s₁, hfirst, hrest⟩ := Session.ok_of_bind s hrun
    have hfirst' := hthere first List.mem_cons_self
    have hvisit := ht.visit_follows htree hnull levels hreach h hfolder hfirst'
      fun hdeep hstat => ht.below_follows htree hnull levels room (above ++ [first]) (.inl hdeep)
        (by simp; omega) ((ht.worked h).plain_of_isSome htree hfirst') h hstat
    intro name hname
    cases List.mem_cons.mp hname with
    | inl heq =>
      subst heq
      exact ⟨s, done, s₁, done₁, h, hfolder, hfirst', hfirst⟩
    | inr hlater =>
      -- the first name has let its directory be, so the later ones are still there
      obtain ⟨h₁, hkept⟩ := ht.run_sources _
        (fun file hfile => mem_filesBelow.mp (List.mem_filter.mp hfile).1) h (hvisit.run_eq hfirst)
      exact ih h₁ (stat_directory_of_kept hkept hfolder)
        (fun other hother => isSome_of_kept hkept (hthere other (List.mem_cons_of_mem _ hother)))
        hrest name hlater

/-- **A walk that arrives has seen everything** below a directory that was there at the
start: it can be looked at, and each directory on the way is not too far down and may be
listed. -/
theorem seen_below (room : Nat) (above : List String) (hreach : deep = true ∨ above = [])
    (hroom : above.length + room = levels) (hplain : Plain above) (h : holds s done)
    (hfolder : s.files.stat (within source above) = .ok .directory)
    (hrun : s.run (walkDown deep treat room (within source above) (output.map (within · above)) done)
      = (.ok done', s')) (names : List String) {entry : FileEntry}
    (hat : start.at? (start.placeOf source ++ (above ++ names)) = some entry)
    (hnames : deep = true ∨ names.length ≤ 1) :
    start.stat (within source (above ++ names)) = .ok entry
      ∧ (entry = .directory → deep = true ∨ above ++ names = [] →
          start.sealed.contains (start.placeOf source ++ (above ++ names)) = false
            ∧ (above ++ names).length < levels) := by
  induction room generalizing above s done done' s' names entry with
  | zero => exact absurd (congrArg Prod.fst hrun) (by simp [walkDown, Session.run_throw])
  | succ room ih =>
    have hworked := ht.worked h
    have hlinks := hworked.links_eq htree
    have hplace : s.files.placeOf (within source above) = start.placeOf source ++ above := by
      rw [placeOf_within hlinks source hplain, Files.placeOf_eq_of_ground hworked.ground]
    rw [Walk.run_walkDown, list_of_stat hfolder, hplace] at hrun
    by_cases hsealed : s.files.sealed.contains (start.placeOf source ++ above) = true
    · rw [if_pos hsealed] at hrun
      exact absurd (congrArg Prod.fst hrun) (by simp)
    rw [if_neg hsealed] at hrun
    cases names with
    | nil =>
      rw [List.append_nil] at hat ⊢
      refine ⟨stat_of_kept htree hsource hworked hat hfolder, fun _ _ => ⟨?_, by omega⟩⟩
      rw [hworked.ground] at hsealed
      simpa using hsealed
    | cons name rest =>
      -- the first of the names was taken up when the directory was listed
      have hsplit : above ++ name :: rest = (above ++ [name]) ++ rest := by simp
      rw [hsplit] at hat ⊢
      have hfirst : (start.at? (start.placeOf source ++ (above ++ [name]))).isSome := by
        by_cases hrest : rest = []
        · rw [hrest, List.append_nil] at hat
          simp [hat]
        · rw [← List.append_assoc] at hat
          simp [directory_of_below htree hrest hat]
      have hthere : ∀ other ∈ s.files.namesAt (start.placeOf source ++ above),
          (s.files.at? (start.placeOf source ++ (above ++ [other]))).isSome := by
        intro other hother
        rw [← List.append_assoc]
        exact (mem_namesAt hlinks).mp hother
      have hmem : name ∈ s.files.namesAt (start.placeOf source ++ above) := by
        rw [mem_namesAt hlinks, List.append_assoc]
        exact isSome_of_kept hworked hfirst
      obtain ⟨s₁, done₁, s₂, done₂, h₁, hfolder₁, hat₁, hvisit⟩ :=
        ht.exists_visit htree hsource hreach hroom _ h hfolder hthere hrun name hmem
      have hworked₁ := ht.worked h₁
      have hlinks₁ := hworked₁.links_eq htree
      have hplain₁ := hworked₁.plain_of_isSome htree hat₁
      have hplace₁ : s₁.files.placeOf (within source (above ++ [name]))
          = start.placeOf source ++ (above ++ [name]) := by
        rw [placeOf_within hlinks₁ source hplain₁, Files.placeOf_eq_of_ground hworked₁.ground]
      obtain ⟨found, hfound⟩ := Option.isSome_iff_exists.mp hat₁
      have hlook : s₁.files.look (within source (above ++ [name])) = .ok (some found) := by
        have hcases := look_child hlinks₁ hfolder₁ name
        rw [child_within, hplace₁, hfound] at hcases
        rcases hcases with ⟨hbad, -⟩ | hlook | ⟨-, hlook⟩
        · obtain ⟨entry₁, hentry₁⟩ := Option.isSome_iff_exists.mp hfirst
          exact absurd hbad (by simp [hasNull_within htree hsource hentry₁])
        · exact hlook
        · rw [Walk.run_visit, child_within, hlook] at hvisit
          exact absurd (congrArg Prod.fst hvisit) (by simp)
      have hstat := Files.look_eq_ok_some hlook
      have hgone : found = .directory → deep = true →
          s₁.run (walkDown deep treat room (within source (above ++ [name]))
            (output.map (within · (above ++ [name]))) done₁) = (.ok done₂, s₂) := by
        intro hdirectory hdeep
        rw [Walk.run_visit, child_within, hlook, hdirectory] at hvisit
        simp only [if_pos hdeep, map_child] at hvisit
        exact hvisit
      by_cases hdown : found = .directory ∧ deep = true
      · obtain ⟨hdirectory, hdeep⟩ := hdown
        refine ih (above ++ [name]) (.inl hdeep) (by simp; omega) hplain₁ h₁ ?_
          (hgone hdirectory hdeep) rest hat (.inl hdeep)
        rw [hstat, hdirectory]
      · -- nothing was gone down into, so the name is the last one
        have hrest : rest = [] := by
          by_contra hrest
          rcases hnames with hdeep | hlength
          · rw [← List.append_assoc] at hat
            have hdirectory := hworked₁.directory (directory_of_below htree hrest hat)
            rw [hfound] at hdirectory
            injection hdirectory with hdirectory
            exact hdown ⟨hdirectory, hdeep⟩
          · exact hrest (List.length_eq_zero_iff.mp (by simpa using hlength))
        subst hrest
        rw [List.append_nil] at hat ⊢
        refine ⟨stat_of_kept htree hsource hworked₁ hat hstat, ?_⟩
        intro hdirectory hdeep
        rw [hdirectory] at hat
        have hkept := hworked₁.directory hat
        rw [hfound] at hkept
        injection hkept with hkept
        rcases hdeep with hdeep | hnil
        · exact absurd ⟨hkept, hdeep⟩ hdown
        · exact absurd hnil (by simp)

/-- **A walk that arrives has seen everything** that was there at the start. -/
theorem seen (h : holds s done)
    (hrun : s.run (walkDown deep treat levels source output done) = (.ok done', s'))
    (names : List String) {entry : FileEntry}
    (hat : start.at? (start.placeOf source ++ names) = some entry)
    (hnames : deep = true ∨ names.length ≤ 1) :
    start.stat (within source names) = .ok entry
      ∧ (entry = .directory → deep = true ∨ names = [] →
          start.sealed.contains (start.placeOf source ++ names) = false
            ∧ names.length < levels) := by
  have hfolder : s.files.stat (within source []) = .ok .directory := by
    rw [within_nil]
    exact stat_directory_of_kept (ht.worked h) hsource
  have hrun' : s.run (walkDown deep treat levels (within source []) (output.map (within · [])) done)
      = (.ok done', s') := by
    rw [within_nil, map_within_nil]
    exact hrun
  exact ht.seen_below htree hsource levels [] (.inr rfl) (by simp)
    (fun name hname => absurd hname (by simp)) h hfolder hrun' names hat hnames

end Treats

end Walk

end Offside.Directory
