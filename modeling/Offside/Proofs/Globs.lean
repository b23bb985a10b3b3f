/-
  Offside.Proofs.Globs
  ────────────────────
  **LISTING ALL FILES BELOW A DIRECTORY AT ONCE.**

  A walk lists a directory when it gets there; a watch lists all files below a
  directory at once and sorts them (`mem_glob`, `glob_sorted`).  The two differ in
  what they make of a link and of a directory that may not be listed: the walk goes
  down through a link and fails at such a directory, the list does neither.  So
  whatever is listed is also found by a walk that arrives, and a source that is found
  and not listed is below a link (`listed_or_linked`).

  In a tree that can be walked down there is no difference: the list is that of the
  files in the store (`glob_of_tree`).
-/
import Offside.Proofs.DirectoryWalk

namespace Offside.Glob

open Compiler Directory Walk

/-! ## §1. Lists that are made one after the other. -/

/-- Two steps succeed when the first does, and the second with its result. -/
theorem ok_of_bind {α β : Type} {x : Except FileError α} {f : α → Except FileError β} {b : β}
    (h : (x >>= f) = .ok b) : ∃ a, x = .ok a ∧ f a = .ok b := by
  cases x with
  | error e => exact absurd h (by simp [bind, Except.bind])
  | ok a => exact ⟨a, rfl, h⟩

/-- Two steps fail when the first does, or the second with its result. -/
theorem error_of_bind {α β : Type} {x : Except FileError α} {f : α → Except FileError β}
    {e : FileError} (h : (x >>= f) = .error e) : x = .error e ∨ ∃ a, x = .ok a ∧ f a = .error e := by
  cases x with
  | error e' => exact .inl (congrArg Except.error (Except.error.inj h))
  | ok a => exact .inr ⟨a, rfl, h⟩

section Gather

variable {α β : Type} {list : α → Except FileError (List β)} {items : List α}

/-- The list that is made of an item, or none if it cannot be made. -/
def made (list : α → Except FileError (List β)) (item : α) : List β :=
  match list item with
  | .ok here => here
  | .error _ => []

/-- All lists are made, and joined. -/
theorem gather_eq_ok {all : List β} (h : Files.gather list items = .ok all) :
    (∀ item ∈ items, ∃ here, list item = .ok here) ∧ all = items.flatMap (made list) := by
  induction items generalizing all with
  | nil =>
    obtain rfl : [] = all := Except.ok.inj h
    exact ⟨by simp, rfl⟩
  | cons item rest ih =>
    obtain ⟨here, hhere, h⟩ := ok_of_bind h
    obtain ⟨more, hmore, h⟩ := ok_of_bind h
    obtain rfl : here ++ more = all := Except.ok.inj h
    obtain ⟨hall, rfl⟩ := ih hmore
    refine ⟨List.forall_mem_cons.mpr ⟨⟨here, hhere⟩, hall⟩, ?_⟩
    rw [List.flatMap_cons, made, hhere]

/-- If not, one of them cannot be made. -/
theorem gather_eq_error {e : FileError} (h : Files.gather list items = .error e) :
    ∃ item ∈ items, list item = .error e := by
  induction items with
  | nil => exact absurd h (by simp [Files.gather])
  | cons item rest ih =>
    rcases error_of_bind h with hhere | ⟨here, -, h⟩
    · exact ⟨item, List.mem_cons_self, hhere⟩
    · rcases error_of_bind h with hmore | ⟨more, -, h⟩
      · obtain ⟨item', hitem', he⟩ := ih hmore
        exact ⟨item', List.mem_cons_of_mem _ hitem', he⟩
      · exact absurd h (by simp [pure, Except.pure])

/-- If each of them can be made, all are. -/
theorem gather_of_forall (h : ∀ item ∈ items, ∃ here, list item = .ok here) :
    ∃ all, Files.gather list items = .ok all := by
  cases hall : Files.gather list items with
  | ok all => exact ⟨all, rfl⟩
  | error e =>
    obtain ⟨item, hitem, he⟩ := gather_eq_error hall
    obtain ⟨here, hhere⟩ := h item hitem
    rw [hhere] at he
    exact absurd he (by simp)

/-- Nothing is in the joined list twice, if it tells which item it was made of. -/
theorem nodup_gathered (hitems : items.Nodup)
    (hmade : ∀ item ∈ items, (made list item).Nodup)
    (htells : ∀ item ∈ items, ∀ other ∈ items, ∀ b ∈ made list item, b ∈ made list other →
      item = other) : (items.flatMap (made list)).Nodup := by
  refine List.nodup_flatMap.mpr ⟨hmade, hitems.imp_of_mem ?_⟩
  intro item other hitem hother hne
  rw [Function.onFun, List.disjoint_left]
  intro b hb hb'
  exact hne (htells item hitem other hother b hb hb')

end Gather

/-- **A file that is listed.**  A link to a directory is not entered. -/
def Listed (fs : Files) (deep : Bool) (accept : String → Bool) : Path → Path → Prop :=
  Reached fs.globbed (fun folder name => deep = true ∧ fs.hasFolder folder name = true)
    (fun folder name => accept name = true ∧ FileIn fs folder name)

/-! ## §2. What is listed. -/

section Listed

variable {fs : Files} {accept : String → Bool}

/-- What is reached from a directory is below it. -/
theorem within_of_reached {lists : Path → Except FileError (List String)}
    {enters accepts : Path → String → Prop} {folder file : Path}
    (h : Reached lists enters accepts folder file) :
    ∃ name rest, file = within folder (name :: rest) := by
  induction h with
  | @inside folder _ name => exact ⟨name, [], by simp [within, Path.child]⟩
  | @further folder _ _ name _ _ _ _ ih =>
    obtain ⟨next, rest, rfl⟩ := ih
    exact ⟨name, next :: rest, by simp [within, Path.child]⟩

/-- What is listed is a file. -/
theorem look_of_listed {deep : Bool} {folder file : Path} (h : Listed fs deep accept folder file) :
    ∃ content mtime executable, fs.look file = .ok (some (.file content mtime executable)) := by
  induction h with
  | inside _ _ accepted => exact accepted.2
  | further _ _ _ _ ih => exact ih

/-- A file is listed if it is seen to be one. -/
theorem fileAt_eq_ok {file : Path} {here : List Path} (h : fs.fileAt file = .ok here) {q : Path} :
    q ∈ here ↔ q = file ∧ ∃ content mtime executable,
      fs.look file = .ok (some (.file content mtime executable)) := by
  obtain ⟨found, hlook, h⟩ := ok_of_bind h
  match found with
  | none =>
    obtain rfl : [] = here := Except.ok.inj h
    simp [hlook]
  | some .directory =>
    obtain rfl : [] = here := Except.ok.inj h
    simp [hlook]
  | some (.file content mtime executable) =>
    obtain rfl : [file] = here := Except.ok.inj h
    simp [hlook]

/-- The files with accepted names in one directory. -/
def filesIn (fs : Files) (accept : String → Bool) (folder : Path) :
    Except FileError (List Path) := do
  let names ← fs.globbed folder
  Files.gather (fun name => fs.fileAt (folder.child name)) (names.filter accept)

/-- The files of a directory are those of its names that are accepted and are seen to be
files. -/
theorem filesIn_eq_ok {folder : Path} {files : List Path} (h : filesIn fs accept folder = .ok files) :
    ∃ names, fs.globbed folder = .ok names
      ∧ files = (names.filter accept).flatMap (made fun name => fs.fileAt (folder.child name))
      ∧ ∀ file, file ∈ files ↔
          ∃ name ∈ names, (accept name = true ∧ FileIn fs folder name) ∧ file = folder.child name := by
  obtain ⟨names, hnames, h⟩ := ok_of_bind h
  obtain ⟨hall, hfiles⟩ := gather_eq_ok h
  refine ⟨names, hnames, hfiles, fun file => ?_⟩
  rw [hfiles, List.mem_flatMap]
  constructor
  · rintro ⟨name, hname, hfile⟩
    obtain ⟨here, hhere⟩ := hall name hname
    obtain ⟨hmember, haccepted⟩ := List.mem_filter.mp hname
    rw [made, hhere] at hfile
    obtain ⟨rfl, hthere⟩ := (fileAt_eq_ok hhere).mp hfile
    exact ⟨name, hmember, ⟨haccepted, hthere⟩, rfl⟩
  · rintro ⟨name, hmember, ⟨haccepted, hthere⟩, rfl⟩
    have hname : name ∈ names.filter accept := List.mem_filter.mpr ⟨hmember, haccepted⟩
    obtain ⟨here, hhere⟩ := hall name hname
    refine ⟨name, hname, ?_⟩
    rw [made, hhere]
    exact (fileAt_eq_ok hhere).mpr ⟨rfl, hthere⟩

/-- A directory comes first, and after it those below each of its names. -/
theorem foldersBelow_eq_ok {levels : Nat} {folder : Path} {folders : List Path}
    (h : fs.foldersBelow (levels + 1) folder = .ok folders) :
    ∃ names, fs.globbed folder = .ok names
      ∧ (∀ name ∈ names.filter (fs.hasFolder folder),
          ∃ below, fs.foldersBelow levels (folder.child name) = .ok below)
      ∧ folders = folder :: (names.filter (fs.hasFolder folder)).flatMap
          (made fun name => fs.foldersBelow levels (folder.child name)) := by
  obtain ⟨names, hnames, h⟩ := ok_of_bind h
  obtain ⟨below, hbelow, h⟩ := ok_of_bind h
  obtain rfl : folder :: below = folders := Except.ok.inj h
  obtain ⟨hall, rfl⟩ := gather_eq_ok hbelow
  exact ⟨names, hnames, hall, rfl⟩

/-- **Going down without links**: what is in one of the directories is listed, and what is
listed is in one of them. -/
theorem mem_foldersBelow {levels : Nat} {folder : Path} {folders : List Path}
    (h : fs.foldersBelow levels folder = .ok folders)
    (hfiles : ∀ q ∈ folders, ∃ files, filesIn fs accept q = .ok files) (file : Path) :
    (∃ q ∈ folders, file ∈ made (filesIn fs accept) q) ↔ Listed fs true accept folder file := by
  induction levels generalizing folder folders with
  | zero => exact absurd h (by simp [Files.foldersBelow])
  | succ levels ih =>
    obtain ⟨names, hnames, hall, rfl⟩ := foldersBelow_eq_ok h
    obtain ⟨files, hhere⟩ := hfiles folder List.mem_cons_self
    obtain ⟨names', hnames', -, hmember⟩ := filesIn_eq_ok hhere
    rw [hnames] at hnames'
    injection hnames' with hnames'
    subst hnames'
    unfold Listed
    rw [reached_iff hnames]
    -- below a name, the directories are those that were gathered for it
    have hbelow : ∀ name ∈ names.filter (fs.hasFolder folder),
        ((∃ q ∈ made (fun name => fs.foldersBelow levels (folder.child name)) name,
            file ∈ made (filesIn fs accept) q)
          ↔ Listed fs true accept (folder.child name) file) := by
      intro name hname
      obtain ⟨below, hbelow⟩ := hall name hname
      have hmade : made (fun name => fs.foldersBelow levels (folder.child name)) name = below := by
        rw [made, hbelow]
      rw [hmade]
      refine ih hbelow fun q hq => hfiles q (List.mem_cons_of_mem _ ?_)
      exact List.mem_flatMap.mpr ⟨name, hname, hmade ▸ hq⟩
    constructor
    · rintro ⟨q, hq, hfile⟩
      rcases List.mem_cons.mp hq with rfl | hq
      · rw [made, hhere] at hfile
        obtain ⟨name, hname, haccepted, rfl⟩ := (hmember file).mp hfile
        exact ⟨name, hname, .inl ⟨haccepted, rfl⟩⟩
      · obtain ⟨name, hname, hq⟩ := List.mem_flatMap.mp hq
        obtain ⟨hname', hfolder⟩ := List.mem_filter.mp hname
        exact ⟨name, hname', .inr ⟨⟨rfl, hfolder⟩, (hbelow name hname).mp ⟨q, hq, hfile⟩⟩⟩
    · rintro ⟨name, hname, ⟨haccepted, rfl⟩ | ⟨⟨-, hfolder⟩, hreached⟩⟩
      · refine ⟨folder, List.mem_cons_self, ?_⟩
        rw [made, hhere]
        exact (hmember _).mpr ⟨name, hname, haccepted, rfl⟩
      · have hname' := List.mem_filter.mpr ⟨hname, hfolder⟩
        obtain ⟨q, hq, hfile⟩ := (hbelow name hname').mpr hreached
        exact ⟨q, List.mem_cons_of_mem _ (List.mem_flatMap.mpr ⟨name, hname', hq⟩), hfile⟩

/-- The directories that are looked through. -/
def foldersOf (fs : Files) (deep : Bool) (folder : Path) : Except FileError (List Path) :=
  if deep then fs.foldersBelow Files.maxLevels folder else .ok [folder]

/-- **A list is made** of the directories, of the files in each of them, and sorted. -/
theorem glob_eq (fs : Files) (folder : Path) (deep : Bool) (accept : String → Bool) :
    fs.glob folder deep accept = (do
      let folders ← foldersOf fs deep folder
      let found ← Files.gather (filesIn fs accept) folders
      return Files.sortPaths found) := by
  cases deep <;> rfl

/-- **A list that is made** is made of the files of every directory below, sorted. -/
theorem glob_eq_ok {folder : Path} {deep : Bool} {paths : List Path}
    (h : fs.glob folder deep accept = .ok paths) :
    ∃ folders, foldersOf fs deep folder = .ok folders
      ∧ (∀ q ∈ folders, ∃ files, filesIn fs accept q = .ok files)
      ∧ paths = Files.sortPaths (folders.flatMap (made (filesIn fs accept))) := by
  rw [glob_eq] at h
  obtain ⟨folders, hfolders, h⟩ := ok_of_bind h
  obtain ⟨found, hfound, h⟩ := ok_of_bind h
  obtain rfl : Files.sortPaths found = paths := Except.ok.inj h
  obtain ⟨hall, rfl⟩ := gather_eq_ok hfound
  exact ⟨folders, hfolders, hall, rfl⟩

/-- **The list holds what is listed**, and nothing else. -/
theorem mem_glob {folder : Path} {deep : Bool} {paths : List Path}
    (h : fs.glob folder deep accept = .ok paths) (file : Path) :
    file ∈ paths ↔ Listed fs deep accept folder file := by
  obtain ⟨folders, hfolders, hfiles, rfl⟩ := glob_eq_ok h
  rw [(Files.perm_sortPaths _).mem_iff, List.mem_flatMap]
  cases deep with
  | true => exact mem_foldersBelow hfolders hfiles file
  | false =>
    obtain rfl : [folder] = folders := Except.ok.inj hfolders
    obtain ⟨files, hhere⟩ := hfiles folder List.mem_cons_self
    obtain ⟨names, hnames, -, hmember⟩ := filesIn_eq_ok hhere
    unfold Listed
    rw [reached_iff hnames]
    simp [made, hhere, hmember]

end Listed

/-! ## §3. The order of the list. -/

section Order

variable {fs : Files} {accept : String → Bool}

/-- The directories below a directory are in it, one in the other. -/
theorem within_of_mem_foldersBelow {levels : Nat} {folder q : Path} {folders : List Path}
    (h : fs.foldersBelow levels folder = .ok folders) (hq : q ∈ folders) :
    ∃ rest, q = within folder rest := by
  induction levels generalizing folder folders with
  | zero => exact absurd h (by simp [Files.foldersBelow])
  | succ levels ih =>
    obtain ⟨names, -, hall, rfl⟩ := foldersBelow_eq_ok h
    rcases List.mem_cons.mp hq with rfl | hq
    · exact ⟨[], (within_nil q).symm⟩
    · obtain ⟨name, hname, hq⟩ := List.mem_flatMap.mp hq
      obtain ⟨below, hbelow⟩ := hall name hname
      rw [made, hbelow] at hq
      obtain ⟨rest, rfl⟩ := ih hbelow hq
      exact ⟨name :: rest, by simp [within, Path.child]⟩

/-- No name is listed twice. -/
theorem globbed_nodup {folder : Path} {names : List String} (h : fs.globbed folder = .ok names) :
    names.Nodup := by
  unfold Files.globbed at h
  split at h
  next =>
    obtain rfl : [] = names := Except.ok.inj h
    exact List.nodup_nil
  next =>
    unfold Files.list at h
    split at h
    next => exact absurd h (by simp)
    next =>
      split at h
      next => exact absurd h (by simp)
      next => exact absurd h (by simp)
      next =>
        split at h
        next => exact absurd h (by simp)
        next =>
          obtain rfl := Except.ok.inj h
          exact (namesAt_sorted fs _).imp fun hlt => ne_of_lt hlt

/-- No directory is looked through twice. -/
theorem nodup_foldersBelow {levels : Nat} {folder : Path} {folders : List Path}
    (h : fs.foldersBelow levels folder = .ok folders) : folders.Nodup := by
  induction levels generalizing folder folders with
  | zero => exact absurd h (by simp [Files.foldersBelow])
  | succ levels ih =>
    obtain ⟨names, hnames, hall, rfl⟩ := foldersBelow_eq_ok h
    have hbelow : ∀ name ∈ names.filter (fs.hasFolder folder),
        ∀ q ∈ made (fun name => fs.foldersBelow levels (folder.child name)) name,
          ∃ rest, q = within folder (name :: rest) := by
      intro name hname q hq
      obtain ⟨below, hbelow⟩ := hall name hname
      rw [made, hbelow] at hq
      obtain ⟨rest, rfl⟩ := within_of_mem_foldersBelow hbelow hq
      exact ⟨rest, by simp [within, Path.child]⟩
    refine List.nodup_cons.mpr ⟨fun hmem => ?_,
      nodup_gathered ((globbed_nodup hnames).filter _) (fun name hname => ?_) ?_⟩
    · obtain ⟨name, hname, hq⟩ := List.mem_flatMap.mp hmem
      obtain ⟨rest, hself⟩ := hbelow name hname folder hq
      have := congrArg (fun p : Path => p.parts.length) hself
      simp [within] at this
    · obtain ⟨below, hbelow⟩ := hall name hname
      rw [made, hbelow]
      exact ih hbelow
    · intro name hname other hother q hq hq'
      obtain ⟨rest, rfl⟩ := hbelow name hname q hq
      obtain ⟨rest', hsame⟩ := hbelow other hother _ hq'
      have hparts := List.append_cancel_left (congrArg Path.parts hsame)
      injection hparts

/-- Nor is a file listed twice. -/
theorem nodup_filesIn {folder : Path} {files : List Path}
    (h : filesIn fs accept folder = .ok files) : files.Nodup := by
  obtain ⟨names, hnames, h⟩ := ok_of_bind h
  obtain ⟨hall, rfl⟩ := gather_eq_ok h
  have hone : ∀ name ∈ names.filter accept,
      ∀ q ∈ made (fun name => fs.fileAt (folder.child name)) name, q = folder.child name := by
    intro name hname q hq
    obtain ⟨here, hhere⟩ := hall name hname
    rw [made, hhere] at hq
    exact ((fileAt_eq_ok hhere).mp hq).1
  refine nodup_gathered ((globbed_nodup hnames).filter _) (fun name hname => ?_) ?_
  · obtain ⟨here, hhere⟩ := hall name hname
    rw [made, hhere]
    obtain ⟨found, -, hfound⟩ := ok_of_bind hhere
    split at hfound
    all_goals
      obtain rfl := Except.ok.inj hfound
      simp
  · intro name hname other hother q hq hq'
    have hsame := (hone name hname q hq).symm.trans (hone other hother q hq')
    simpa [Path.child] using congrArg Path.parts hsame

theorem parent_child (p : Path) (name : String) : (p.child name).parent = p := by
  simp [Path.parent, Path.child]

/-- **The list is strictly sorted** by the parts of the paths. -/
theorem glob_sorted {folder : Path} {deep : Bool} {paths : List Path}
    (h : fs.glob folder deep accept = .ok paths) :
    paths.Pairwise fun a b => a.parts < b.parts := by
  obtain ⟨folders, hfolders, hfiles, rfl⟩ := glob_eq_ok h
  have hwithin : ∀ q ∈ folders, ∃ rest, q = within folder rest := by
    cases deep with
    | true => exact fun q hq => within_of_mem_foldersBelow hfolders hq
    | false =>
      obtain rfl : [folder] = folders := Except.ok.inj hfolders
      exact fun q hq => ⟨[], by rw [within_nil, List.mem_singleton.mp hq]⟩
  have hfile : ∀ q ∈ folders, ∀ file ∈ made (filesIn fs accept) q, ∃ name, file = q.child name := by
    intro q hq file hfile
    obtain ⟨files, hhere⟩ := hfiles q hq
    rw [made, hhere] at hfile
    obtain ⟨names, -, -, hmember⟩ := filesIn_eq_ok hhere
    obtain ⟨name, -, -, hname⟩ := (hmember file).mp hfile
    exact ⟨name, hname⟩
  have hnodup : (folders.flatMap (made (filesIn fs accept))).Nodup := by
    refine nodup_gathered ?_ (fun q hq => ?_) ?_
    · cases deep with
      | true => exact nodup_foldersBelow hfolders
      | false =>
        obtain rfl : [folder] = folders := Except.ok.inj hfolders
        exact List.nodup_singleton folder
    · obtain ⟨files, hhere⟩ := hfiles q hq
      rw [made, hhere]
      exact nodup_filesIn hhere
    · intro q hq q' hq' file hf hf'
      obtain ⟨name, rfl⟩ := hfile q hq file hf
      obtain ⟨name', hsame⟩ := hfile q' hq' _ hf'
      rw [← parent_child q name, ← parent_child q' name', hsame]
  have hsorted := Files.sortPaths_sorted (folders.flatMap (made (filesIn fs accept)))
  have hdistinct := (Files.perm_sortPaths _).nodup_iff.mpr hnodup
  refine (hsorted.and hdistinct).imp_of_mem ?_
  rintro a b ha hb ⟨hle, hne⟩
  refine lt_of_le_of_ne hle fun hparts => hne ?_
  -- the order sees only the parts, but all the paths have the anchor of the directory
  have hanchor : ∀ file ∈ Files.sortPaths (folders.flatMap (made (filesIn fs accept))),
      file.anchor = folder.anchor := by
    intro file hmem
    obtain ⟨q, hq, hf⟩ := List.mem_flatMap.mp ((Files.perm_sortPaths _).mem_iff.mp hmem)
    obtain ⟨name, rfl⟩ := hfile q hq file hf
    obtain ⟨rest, rfl⟩ := hwithin q hq
    rfl
  obtain ⟨anchor, parts⟩ := a
  obtain ⟨anchor', parts'⟩ := b
  exact congrArg₂ Path.mk ((hanchor _ ha).trans (hanchor _ hb).symm) hparts

end Order

/-! ## §4. The list of a tree. -/

/-- All that is below a directory can be looked at, and every directory that is gone down
into may be listed and is not too far down. -/
def Explorable (fs : Files) (source : Path) (deep : Bool) : Prop :=
  ∀ names entry, fs.at? (fs.placeOf source ++ names) = some entry →
    (deep = true ∨ names.length ≤ 1) →
      fs.stat (within source names) = .ok entry
        ∧ (entry = .directory → deep = true ∨ names = [] →
            fs.sealed.contains (fs.placeOf source ++ names) = false
              ∧ names.length < Files.maxLevels)

section Tree

variable {fs : Files} {source : Path} {deep : Bool} {accept : String → Bool}
  {above : List String} {name : String}

/-- What is listed but for a refusal is listed by a walk too. -/
theorem list_of_globbed {folder : Path} {names : List String} (h : fs.globbed folder = .ok names)
    (hne : names ≠ []) : fs.list folder = .ok names := by
  unfold Files.globbed at h
  split at h
  next => exact absurd (Except.ok.inj h).symm hne
  next => exact h

/-- A directory that is listed is one, and its names are those of its entries. -/
theorem list_eq_ok {folder : Path} {names : List String} (h : fs.list folder = .ok names) :
    ∃ loc, fs.locate folder = .ok loc ∧ fs.at? loc = some .directory ∧ names = fs.namesAt loc := by
  unfold Files.list at h
  split at h
  next => exact absurd h (by simp)
  next loc hlocate =>
    split at h
    next => exact absurd h (by simp)
    next => exact absurd h (by simp)
    next hat =>
      split at h
      next => exact absurd h (by simp)
      next => exact ⟨loc, hlocate, hat, (Except.ok.inj h).symm⟩

/-- Where something is listed there is a directory. -/
theorem stat_of_listed {folder file : Path} (h : Listed fs deep accept folder file) :
    fs.stat folder = .ok .directory := by
  have hlisted : ∃ names name, fs.globbed folder = .ok names ∧ name ∈ names := by
    cases h with
    | inside listed member _ => exact ⟨_, _, listed, member⟩
    | further listed member _ _ => exact ⟨_, _, listed, member⟩
  obtain ⟨names, name, hglob, hname⟩ := hlisted
  obtain ⟨loc, hlocate, hat, -⟩ := list_eq_ok (list_of_globbed hglob (List.ne_nil_of_mem hname))
  exact Files.stat_of_locate (Files.locate_eq_ok hlocate ▸ hlocate)
    (Files.locate_eq_ok hlocate ▸ hat)

/-- The files with accepted names below a directory, by the entries of the store. -/
theorem mem_filesBelow_iff {file : Path} :
    file ∈ fs.filesBelow source deep accept ↔
      ∃ above name content mtime executable,
        (fs.placeOf source ++ (above ++ [name]), FileEntry.file content mtime executable) ∈ fs.entries
          ∧ (deep = true ∨ above = []) ∧ accept name = true
          ∧ file = within source (above ++ [name]) := by
  unfold Files.filesBelow
  rw [(Files.perm_sortPaths _).mem_iff, List.mem_filterMap]
  simp only [Files.fileBelow?_eq_some_iff]
  constructor
  · rintro ⟨e, he, above, name, content, mtime, executable, rfl, hdeep, haccept, rfl⟩
    exact ⟨above, name, content, mtime, executable, he, hdeep, haccept, rfl⟩
  · rintro ⟨above, name, content, mtime, executable, he, hdeep, haccept, rfl⟩
    exact ⟨_, he, above, name, content, mtime, executable, rfl, hdeep, haccept, rfl⟩

variable (htree : IsTree fs)
include htree

/-- A directory of a tree below another one. -/
theorem placeOf_folder (hat : fs.at? (fs.placeOf source ++ above) = some .directory) :
    fs.placeOf (within source above) = fs.placeOf source ++ above :=
  placeOf_within htree.unlinked source (plain_of_at?_eq_some htree hat)

/-- What is gone down into is a directory. -/
theorem at?_of_hasFolder (hat : fs.at? (fs.placeOf source ++ above) = some .directory)
    (h : fs.hasFolder (within source above) name = true) :
    fs.at? (fs.placeOf source ++ (above ++ [name])) = some .directory := by
  unfold Files.hasFolder at h
  split at h
  next => exact absurd h (by simp)
  next loc hlocate =>
    rw [Files.locate_eq_ok hlocate, placeOf_folder htree hat, List.append_assoc] at h
    split at h
    next hthere => exact hthere
    next => exact absurd h (by simp)

/-- A name in a directory of a tree leads to a directory if one is there. -/
theorem hasFolder_iff {folder : Path} (hfolder : fs.stat folder = .ok .directory) :
    fs.hasFolder folder name = true ↔ fs.at? (fs.placeOf folder ++ [name]) = some .directory := by
  unfold Files.hasFolder
  rw [(Files.stat_eq_ok hfolder).1]
  simp only [htree.unlinked, Files.linkAt?, List.find?_nil, Option.map_none]
  split
  next hat => simp [hat]
  next hother => simpa using hother

/-- The directories below a directory of a tree are there. -/
theorem folder_of_mem {levels : Nat} {folders : List Path} {q : Path}
    (h : fs.foldersBelow levels (within source above) = .ok folders)
    (hat : fs.at? (fs.placeOf source ++ above) = some .directory) (hq : q ∈ folders) :
    ∃ names, q = within source names ∧ fs.at? (fs.placeOf source ++ names) = some .directory := by
  induction levels generalizing above folders with
  | zero => exact absurd h (by simp [Files.foldersBelow])
  | succ levels ih =>
    obtain ⟨names, -, hall, rfl⟩ := foldersBelow_eq_ok h
    rcases List.mem_cons.mp hq with rfl | hq
    · exact ⟨above, rfl, hat⟩
    · obtain ⟨name, hname, hq⟩ := List.mem_flatMap.mp hq
      obtain ⟨below, hbelow⟩ := hall name hname
      rw [made, hbelow] at hq
      rw [child_within] at hbelow
      exact ih hbelow (at?_of_hasFolder htree hat (List.mem_filter.mp hname).2) hq

/-- What is listed below a directory of a tree is there. -/
theorem below_of_listed {folder file : Path} (h : Listed fs deep accept folder file)
    (hfolder : folder = within source above)
    (hat : fs.at? (fs.placeOf source ++ above) = some .directory) :
    ∃ below name content mtime executable,
      fs.at? (fs.placeOf source ++ (above ++ below ++ [name]))
          = some (.file content mtime executable)
        ∧ (deep = true ∨ below = []) ∧ accept name = true
        ∧ file = within source (above ++ below ++ [name]) := by
  induction h generalizing above with
  | @inside _ names name listed member accepted =>
    subst hfolder
    obtain ⟨loc, hlocate, -, rfl⟩ :=
      list_eq_ok (list_of_globbed listed (List.ne_nil_of_mem member))
    obtain rfl : loc = fs.placeOf source ++ above := by
      rw [Files.locate_eq_ok hlocate, placeOf_folder htree hat]
    obtain ⟨entry, hentry⟩ := Option.isSome_iff_exists.mp ((mem_namesAt htree.unlinked).mp member)
    rw [List.append_assoc] at hentry
    obtain ⟨content, mtime, executable, hlook⟩ := accepted.2
    have hthere := (Files.stat_eq_ok (Files.look_eq_ok_some hlook)).2
    rw [child_within, placeOf_within htree.unlinked source (plain_of_at?_eq_some htree hentry)]
      at hthere
    refine ⟨[], name, content, mtime, executable, ?_, .inr rfl, accepted.1, ?_⟩
    · rwa [List.append_nil]
    · rw [List.append_nil, child_within]
  | @further _ file names name listed member entered _ ih =>
    subst hfolder
    have hdown := at?_of_hasFolder htree hat entered.2
    obtain ⟨below, name', content, mtime, executable, hthere, -, haccept, rfl⟩ :=
      ih (child_within source above name) hdown
    refine ⟨name :: below, name', content, mtime, executable, ?_, .inl entered.1, haccept, ?_⟩
    · simpa using hthere
    · simp

/-- **The list of a tree** is among the files in the store, whatever may be listed. -/
theorem mem_filesBelow_of_glob {paths : List Path} (h : fs.glob source deep accept = .ok paths)
    (hat : fs.at? (fs.placeOf source) = some .directory) {file : Path} (hfile : file ∈ paths) :
    file ∈ fs.filesBelow source deep accept := by
  obtain ⟨below, name, content, mtime, executable, hthere, hdeep, haccept, rfl⟩ :=
    below_of_listed htree ((mem_glob h file).mp hfile) (within_nil source).symm
      (by rwa [List.append_nil])
  exact mem_filesBelow_iff.mpr ⟨below, name, content, mtime, executable,
    mem_of_at?_eq_some (by simp) hthere, hdeep, haccept, rfl⟩

variable (hopen : Explorable fs source deep)
include hopen

/-- Inside an explorable directory, directories are listed. -/
theorem globbed_within (hat : fs.at? (fs.placeOf source ++ above) = some .directory)
    (hreach : deep = true ∨ above = []) :
    fs.stat (within source above) = .ok .directory
      ∧ fs.globbed (within source above) = .ok (fs.namesAt (fs.placeOf source ++ above)) := by
  have hnames : deep = true ∨ above.length ≤ 1 := hreach.imp_right fun h => by simp [h]
  obtain ⟨hstat, hlisted⟩ := hopen above .directory hat hnames
  refine ⟨hstat, ?_⟩
  unfold Files.globbed
  rw [list_of_stat hstat, placeOf_folder htree hat, (hlisted rfl hreach).1]
  rfl

omit htree in
/-- Inside an explorable directory, a file is seen to be one. -/
theorem fileIn_within {entry : FileEntry}
    (hat : fs.at? (fs.placeOf source ++ (above ++ [name])) = some entry)
    (hreach : deep = true ∨ above = []) :
    FileIn fs (within source above) name ↔
      ∃ content mtime executable, entry = .file content mtime executable := by
  have hnames : deep = true ∨ (above ++ [name]).length ≤ 1 := hreach.imp_right fun h => by simp [h]
  obtain ⟨hstat, -⟩ := hopen _ entry hat hnames
  unfold FileIn
  rw [child_within, Files.look_of_stat hstat]
  simp

/-- What is below a directory of a tree is listed. -/
theorem listed_of_below (below : List String) {content : ByteArray} {mtime : Binary64}
    {executable : Bool} (hat : fs.at? (fs.placeOf source ++ (above ++ below ++ [name]))
      = some (.file content mtime executable))
    (hreach : deep = true ∨ above ++ below = []) (haccept : accept name = true) :
    Listed fs deep accept (within source above) (within source (above ++ below ++ [name])) := by
  induction below generalizing above with
  | nil =>
    simp only [List.append_nil] at hat hreach ⊢
    have hdirectory : fs.at? (fs.placeOf source ++ above) = some .directory := by
      rw [← List.append_assoc] at hat
      exact directory_of_below htree (by simp) hat
    obtain ⟨-, hlisted⟩ := globbed_within htree hopen hdirectory hreach
    rw [← child_within]
    refine .inside hlisted ((mem_namesAt htree.unlinked).mpr ?_) ⟨haccept, ?_⟩
    · rw [List.append_assoc, hat]
      rfl
    · exact (fileIn_within hopen hat hreach).mpr ⟨_, _, _, rfl⟩
  | cons first rest ih =>
    have hdeep : deep = true := hreach.resolve_right (by simp)
    have hbelow : fs.at? ((fs.placeOf source ++ (above ++ [first])) ++ (rest ++ [name]))
        = some (.file content mtime executable) := by simpa using hat
    have hdown := directory_of_below htree (by simp) hbelow
    have hdirectory : fs.at? (fs.placeOf source ++ above) = some .directory := by
      rw [← List.append_assoc] at hdown
      exact directory_of_below htree (by simp) hdown
    obtain ⟨hstat, hlisted⟩ := globbed_within htree hopen hdirectory (.inl hdeep)
    -- the first name is a directory, since something is below it
    have hfolder : fs.hasFolder (within source above) first = true := by
      rw [hasFolder_iff htree hstat, placeOf_folder htree hdirectory, List.append_assoc]
      exact hdown
    refine .further hlisted ((mem_namesAt htree.unlinked).mpr ?_) ⟨hdeep, hfolder⟩ ?_
    · rw [List.append_assoc, hdown]
      rfl
    · have hrest : Listed fs deep accept (within source (above ++ [first]))
          (within source (above ++ [first] ++ rest ++ [name])) :=
        ih (by simpa using hat) (.inl hdeep)
      rw [List.append_assoc above [first] rest] at hrest
      rw [child_within]
      exact hrest

/-- The files in a directory of a tree can be listed. -/
theorem filesIn_within (hat : fs.at? (fs.placeOf source ++ above) = some .directory)
    (hreach : deep = true ∨ above = []) :
    ∃ files, filesIn fs accept (within source above) = .ok files := by
  obtain ⟨-, hlisted⟩ := globbed_within htree hopen hat hreach
  unfold filesIn
  rw [hlisted]
  refine gather_of_forall fun name hname => ?_
  obtain ⟨entry, hentry⟩ := Option.isSome_iff_exists.mp
    ((mem_namesAt htree.unlinked).mp (List.mem_filter.mp hname).1)
  rw [List.append_assoc] at hentry
  have hnames : deep = true ∨ (above ++ [name]).length ≤ 1 := hreach.imp_right fun h => by simp [h]
  obtain ⟨hstat, -⟩ := hopen _ entry hentry hnames
  unfold Files.fileAt
  rw [child_within, Files.look_of_stat hstat]
  cases entry <;> exact ⟨_, rfl⟩

/-- So can the directories below it, since none is too far down. -/
theorem foldersBelow_within (hdeep : deep = true) (levels : Nat)
    (hlevels : Files.maxLevels ≤ above.length + levels)
    (hat : fs.at? (fs.placeOf source ++ above) = some .directory) :
    ∃ folders, fs.foldersBelow levels (within source above) = .ok folders := by
  induction levels generalizing above with
  | zero =>
    have hfar := ((hopen above _ hat (.inl hdeep)).2 rfl (.inl hdeep)).2
    omega
  | succ levels ih =>
    obtain ⟨-, hlisted⟩ := globbed_within htree hopen hat (.inl hdeep)
    have hbelow : ∀ name ∈ (fs.namesAt (fs.placeOf source ++ above)).filter
        (fs.hasFolder (within source above)),
        ∃ folders, fs.foldersBelow levels ((within source above).child name) = .ok folders := by
      intro name hname
      rw [child_within]
      refine ih ?_ (at?_of_hasFolder htree hat (List.mem_filter.mp hname).2)
      rw [List.length_append, List.length_singleton]
      omega
    obtain ⟨all, hall⟩ := gather_of_forall hbelow
    refine ⟨within source above :: all, ?_⟩
    unfold Files.foldersBelow
    rw [hlisted]
    show (do
      let below ←
        Files.gather (fun name => fs.foldersBelow levels ((within source above).child name)) _
      return within source above :: below : Except FileError (List Path)) = _
    rw [hall]
    rfl

/-- A list can be made of a directory that can be explored. -/
theorem glob_within (hat : fs.at? (fs.placeOf source) = some .directory) :
    ∃ paths, fs.glob source deep accept = .ok paths := by
  have hat' : fs.at? (fs.placeOf source ++ []) = some .directory := by rwa [List.append_nil]
  have hfolders : ∃ folders, foldersOf fs deep source = .ok folders
      ∧ ∀ q ∈ folders, ∃ files, filesIn fs accept q = .ok files := by
    cases hdeep : deep with
    | true =>
      obtain ⟨folders, hfolders⟩ :=
        foldersBelow_within htree hopen hdeep Files.maxLevels (by simp) hat'
      refine ⟨folders, by rwa [within_nil] at hfolders, fun q hq => ?_⟩
      obtain ⟨names, rfl, hat⟩ := folder_of_mem htree hfolders hat' hq
      exact filesIn_within htree hopen hat (.inl hdeep)
    | false =>
      refine ⟨[source], rfl, fun q hq => ?_⟩
      rw [List.mem_singleton.mp hq, ← within_nil source]
      exact filesIn_within htree hopen hat' (.inr rfl)
  obtain ⟨folders, hfolders, hfiles⟩ := hfolders
  obtain ⟨found, hfound⟩ := gather_of_forall hfiles
  rw [glob_eq, hfolders]
  show ∃ paths, (do
    let found ← Files.gather (filesIn fs accept) folders
    return Files.sortPaths found : Except FileError (List Path)) = .ok paths
  rw [hfound]
  exact ⟨_, rfl⟩

/-- **The list of a tree** that can be explored is that of the files in the store. -/
theorem glob_of_tree (hat : fs.at? (fs.placeOf source) = some .directory) :
    fs.glob source deep accept = .ok (fs.filesBelow source deep accept) := by
  obtain ⟨paths, hpaths⟩ : ∃ paths, fs.glob source deep accept = .ok paths :=
    glob_within htree hopen hat
  rw [hpaths, eq_of_sorted (glob_sorted hpaths)
    (filesBelow_sorted htree.distinct source deep accept) fun file => ?_]
  have hat' : fs.at? (fs.placeOf source ++ []) = some .directory := by rwa [List.append_nil]
  rw [mem_glob hpaths, mem_filesBelow_iff]
  constructor
  · intro h
    exact mem_filesBelow_iff.mp
      (mem_filesBelow_of_glob htree hpaths hat ((mem_glob hpaths file).mpr h))
  · rintro ⟨above, name, content, mtime, executable, hmem, hdeep, haccept, rfl⟩
    have hlisted : Listed fs deep accept (within source []) (within source ([] ++ above ++ [name])) :=
      listed_of_below htree hopen above (at?_eq_some_of_mem htree hmem) hdeep haccept
    rwa [within_nil] at hlisted

end Tree

/-! ## §5. Links. -/

section Links

variable {fs : Files} {deep : Bool} {source file : Path}

/-- Every name in a store leads down and can be written. -/
def WellNamed (fs : Files) : Prop :=
  ∀ loc ∈ fs.entries.map (·.1) ++ fs.links.map (·.1), ∀ name ∈ loc,
    name ≠ "." ∧ name ≠ ".." ∧ name.toList.contains '\x00' = false

theorem mem_of_mem_namesAt {loc : Location} {name : String} (h : name ∈ fs.namesAt loc) :
    loc ++ [name] ∈ fs.entries.map (·.1) ++ fs.links.map (·.1) := by
  have hfold : ∀ names : List String, name ∈ names.foldr Files.insertName [] → name ∈ names := by
    intro names
    induction names with
    | nil => exact id
    | cons first rest ih =>
      rw [List.foldr_cons, mem_insertName, List.mem_cons]
      exact Or.imp_right ih
  obtain ⟨loc', hmem, hname⟩ := List.mem_filterMap.mp (hfold _ h)
  rwa [nameIn?_eq_some_iff.mp hname] at hmem

/-- What can be listed is globbed too. -/
theorem globbed_of_list {folder : Path} {names : List String} (h : fs.list folder = .ok names) :
    fs.globbed folder = .ok names := by
  unfold Files.globbed
  rw [h]

/-- A name that is no link leads down from a directory, unless its path is too long. -/
theorem locate_child (hnamed : WellNamed fs) {loc : Location} {name : String}
    (hlocate : fs.locate source = .ok loc) (hat : fs.at? loc = some .directory)
    (hname : name ∈ fs.namesAt loc) (hlink : Files.linkAt? fs.links (loc ++ [name]) = none) :
    fs.locate (source.child name) = .ok (loc ++ [name])
      ∨ ∃ path, fs.locate (source.child name) = .error (.refused .nameTooLong path) := by
  obtain ⟨hdot, hup, hnull⟩ := hnamed _ (mem_of_mem_namesAt hname) name (by simp)
  have hhop : Files.hop loc name = loc ++ [name] := hop_of_ne hdot hup
  obtain ⟨hnull', -, hends, hwalk⟩ := Files.locate_eq_ok_iff.mp hlocate
  -- the links on the way to the directory are followed as before, and then comes the name
  have hroute : fs.route (source.child name) = ⟨(fs.route source).names ++ [name], false⟩ := by
    refine Files.follow_concat hends ?_
    have hplace := Files.locate_eq_ok hlocate
    unfold Files.placeOf at hplace
    rw [hplace] at hhop hlink
    exact hhop ▸ hlink
  have hlast : fs.walk (fs.origin (source.child name)) ((fs.route source).names ++ [name])
      = if Files.maxNameBytes < name.utf8ByteSize then .error .nameTooLong
        else .ok (loc ++ [name]) := by
    show fs.walk (fs.origin source) _ = _
    rw [Files.walk_append hwalk, Files.walk_cons, hat, hhop]
    rfl
  have hchild : (source.child name).hasNull = false := by
    simp only [Path.hasNull, Path.child, List.any_append, Bool.or_eq_false_iff] at hnull' ⊢
    exact ⟨hnull', by simpa using hnull⟩
  unfold Files.locate Files.reach
  rw [if_neg (by simp [hchild]), hroute, hlast]
  by_cases hlong : Files.maxPathBytes < (source.child name).toString.utf8ByteSize
  · exact .inr ⟨_, if_pos hlong⟩
  · rw [if_neg hlong]
    by_cases hname : Files.maxNameBytes < name.utf8ByteSize
    · rw [if_pos hname]
      exact .inr ⟨_, rfl⟩
    · rw [if_neg hname]
      exact .inl rfl

/-- A directory that is no link is one for a walk too, if it can be looked at. -/
theorem look_of_hasFolder (hnamed : WellNamed fs) {names : List String} {name : String}
    (hlist : fs.list source = .ok names) (hname : name ∈ names)
    (hfolder : fs.hasFolder source name = true) {found : Option FileEntry}
    (hlook : fs.look (source.child name) = .ok found) : found = some .directory := by
  obtain ⟨loc, hlocate, hat, rfl⟩ := list_eq_ok hlist
  unfold Files.hasFolder at hfolder
  simp only [hlocate] at hfolder
  split at hfolder
  next hlink hthere =>
    rcases locate_child hnamed hlocate hat hname hlink with hdown | ⟨path, hlong⟩
    · rw [Files.look_of_locate hdown, hthere] at hlook
      exact (Except.ok.inj hlook).symm
    · rw [Files.look_of_tooLong hlong] at hlook
      exact absurd hlook (by simp)
  next => exact absurd hfolder (by simp)

/-- **Whatever is listed is found** by a walk that arrives. -/
theorem found_of_listed (hnamed : WellNamed fs) {levels : Nat}
    (hwalk : walkable fs deep levels source = true)
    (h : Listed fs deep isSourceName source file) : Found fs deep source file := by
  induction h generalizing levels with
  | inside listed member accepted =>
    exact .inside (list_of_globbed listed (List.ne_nil_of_mem member)) member accepted
  | @further folder file names name listed member entered _ ih =>
    have hlist := list_of_globbed listed (List.ne_nil_of_mem member)
    obtain ⟨levels, rfl⟩ : ∃ n, levels = n + 1 := by
      cases levels with
      | zero => exact absurd hwalk (by simp [walkable])
      | succ n => exact ⟨n, rfl⟩
    have hpass : passable fs deep (walkable fs deep levels) folder name = true := by
      rw [walkable, hlist] at hwalk
      exact List.all_eq_true.mp hwalk name member
    unfold passable at hpass
    split at hpass
    next => exact absurd hpass (by simp)
    next hlook =>
      have hdown : walkable fs deep levels (folder.child name) = true := by
        simpa [entered.1] using hpass
      exact .further hlist member ⟨entered.1, hlook⟩ (ih hdown)
    next found hother hlook =>
      exact absurd (look_of_hasFolder hnamed hlist member entered.2 hlook) hother

/-- **A source that is found and not listed** is below a directory that is entered through
a link. -/
theorem listed_or_linked (h : Found fs deep source file) :
    Listed fs deep isSourceName source file
      ∨ ∃ folder name, fs.look (folder.child name) = .ok (some .directory)
          ∧ fs.hasFolder folder name = false ∧ Found fs deep (folder.child name) file := by
  induction h with
  | inside listed member accepted =>
    exact .inl (.inside (globbed_of_list listed) member accepted)
  | @further folder file names name listed member entered reached ih =>
    cases hfolder : fs.hasFolder folder name with
    | false => exact .inr ⟨folder, name, entered.2, hfolder, reached⟩
    | true =>
      refine ih.imp_left fun hlisted => ?_
      exact .further (globbed_of_list listed) member ⟨entered.1, hfolder⟩ hlisted

end Links

/-! ## §6. Lists that cannot be made. -/

section Refused

variable {fs : Files} {source : Path} {deep : Bool} {accept : String → Bool} (htree : IsTree fs)
  (hsource : fs.stat source = .ok .directory)
include htree hsource

/-- A directory of a tree can only be refused. -/
theorem globbed_refuses {above : List String}
    (hat : fs.at? (fs.placeOf source ++ above) = some .directory) {e : FileError}
    (h : fs.globbed (within source above) = .error e) : e.isRefusal = true := by
  have hnull := hasNull_within htree hsource hat
  have hlist : fs.list (within source above) = .error e := by
    unfold Files.globbed at h
    split at h
    next => exact absurd h (by simp)
    next => exact h
  unfold Files.list at hlist
  split at hlist
  next e' hlocate =>
    obtain rfl := Except.error.inj hlist
    exact Files.locate_refuses hnull hlocate
  next =>
    split at hlist
    next =>
      obtain rfl := Except.error.inj hlist
      rfl
    next =>
      obtain rfl := Except.error.inj hlist
      rfl
    next =>
      split at hlist
      next =>
        obtain rfl := Except.error.inj hlist
        rfl
      next => exact absurd hlist (by simp)

/-- A directory whose files cannot be listed is refused. -/
theorem filesIn_refuses {above : List String}
    (hat : fs.at? (fs.placeOf source ++ above) = some .directory) {e : FileError}
    (h : filesIn fs accept (within source above) = .error e) : e.isRefusal = true := by
  rcases error_of_bind h with hglob | ⟨names, -, h⟩
  · exact globbed_refuses htree hsource hat hglob
  · obtain ⟨name, -, hfile⟩ := gather_eq_error h
    rcases error_of_bind hfile with hlook | ⟨found, -, hfound⟩
    · exact Files.look_refuses hlook
    · split at hfound <;> exact absurd hfound (by simp [pure, Except.pure])

/-- Directories that are not too deep are listed, or refused. -/
theorem foldersBelow_refuses
    (hnear : ∀ names, fs.at? (fs.placeOf source ++ names) = some .directory →
      names.length < Files.maxLevels) (levels : Nat) {above : List String}
    (hlevels : Files.maxLevels ≤ above.length + levels)
    (hat : fs.at? (fs.placeOf source ++ above) = some .directory) {e : FileError}
    (h : fs.foldersBelow levels (within source above) = .error e) : e.isRefusal = true := by
  induction levels generalizing above with
  | zero =>
    have hfar := hnear above hat
    omega
  | succ levels ih =>
    rcases error_of_bind h with hglob | ⟨names, -, h⟩
    · exact globbed_refuses htree hsource hat hglob
    · rcases error_of_bind h with hbelow | ⟨below, -, h⟩
      · obtain ⟨name, hname, hchild⟩ := gather_eq_error hbelow
        rw [child_within] at hchild
        refine ih ?_ (at?_of_hasFolder htree hat (List.mem_filter.mp hname).2) hchild
        rw [List.length_append, List.length_singleton]
        omega
      · exact absurd h (by simp [pure, Except.pure])

/-- **A list of a tree** that is not too deep can only be refused. -/
theorem glob_refuses
    (hnear : deep = true → ∀ names, fs.at? (fs.placeOf source ++ names) = some .directory →
      names.length < Files.maxLevels)
    {e : FileError} (h : fs.glob source deep accept = .error e) : e.isRefusal = true := by
  have hat : fs.at? (fs.placeOf source ++ []) = some .directory := by
    rw [List.append_nil]
    exact (Files.stat_eq_ok hsource).2
  rw [glob_eq] at h
  rcases error_of_bind h with hfolders | ⟨folders, hfolders, h⟩
  · cases hdeep : deep with
    | false => exact absurd hfolders (by simp [foldersOf, hdeep])
    | true =>
      rw [foldersOf, if_pos hdeep, ← within_nil source] at hfolders
      exact foldersBelow_refuses htree hsource (hnear hdeep) Files.maxLevels (by simp) hat hfolders
  · rcases error_of_bind h with hfound | ⟨found, -, h⟩
    · obtain ⟨q, hq, hfiles⟩ := gather_eq_error hfound
      have hwithin : ∃ names, q = within source names
          ∧ fs.at? (fs.placeOf source ++ names) = some .directory := by
        cases hdeep : deep with
        | true =>
          rw [foldersOf, if_pos hdeep, ← within_nil source] at hfolders
          exact folder_of_mem htree hfolders hat hq
        | false =>
          rw [foldersOf, if_neg (by simp [hdeep])] at hfolders
          obtain rfl := Except.ok.inj hfolders
          exact ⟨[], by rw [within_nil, List.mem_singleton.mp hq], hat⟩
      obtain ⟨names, rfl, hat⟩ := hwithin
      exact filesIn_refuses htree hsource hat hfiles
    · exact absurd h (by simp [pure, Except.pure])

end Refused

end Offside.Glob
