/-
  Offside.Proofs.NewProject
  ─────────────────────────
  When a new project can be made.

  The skeleton of a project is made step by step, and every step only adds to
  the files (`Grown`).  The first directory is the one that can go wrong: with
  it comes the root of the project, and all that follows is a child of one of
  the two.  `Plantable` says when that first step succeeds and the names of the
  others can be used; `create_adds` then says that the whole skeleton is there,
  and that nothing that was there before has changed.
-/
import Offside.Proofs.FileStore
import Offside.Project.Skeleton

namespace Offside

namespace Files

/-! ## §1. Files that only grow. -/

theorem isPresent_iff {fs : Files} {p : Path} :
    fs.isPresent p = true ↔ ∃ entry, fs.stat p = .ok entry := by
  unfold isPresent
  cases fs.stat p <;> simp

/-- All that was there is still there, as it was. -/
structure Grown (before after : Files) : Prop where
  ground : after.toGround = before.toGround
  entry : ∀ loc entry, before.at? loc = some entry → after.at? loc = some entry

namespace Grown

variable {a b c : Files}

theorem refl (a : Files) : Grown a a := ⟨rfl, fun _ _ h => h⟩

theorem trans (hab : Grown a b) (hbc : Grown b c) : Grown a c :=
  ⟨hbc.ground.trans hab.ground, fun loc entry h => hbc.entry loc entry (hab.entry loc entry h)⟩

theorem kept (h : Grown a b) : Kept (fun _ => True) (fun _ => True) a b := by
  refine ⟨h.ground, fun loc => ?_⟩
  cases hat : a.at? loc with
  | some entry => exact .inl (h.entry loc entry hat)
  | none =>
    cases hat' : b.at? loc with
    | none => exact .inl rfl
    | some entry =>
      cases entry with
      | directory => exact .inr (.inl ⟨trivial, rfl, rfl⟩)
      | file content mtime executable =>
        exact .inr (.inr ⟨trivial, by simp, by simp [version?, hat']⟩)

theorem stat (h : Grown a b) {p : Path} {entry : FileEntry} (hstat : a.stat p = .ok entry) :
    b.stat p = .ok entry := by
  obtain ⟨hlocate, hat⟩ := stat_eq_ok hstat
  exact stat_of_locate (h.kept.locate hlocate) (h.entry _ _ hat)

theorem isPresent (h : Grown a b) {p : Path} (hp : a.isPresent p = true) :
    b.isPresent p = true := by
  obtain ⟨entry, hstat⟩ := isPresent_iff.mp hp
  exact isPresent_iff.mpr ⟨entry, h.stat hstat⟩

end Grown

/-- A change that writes only where there was nothing lets the files grow. -/
theorem Kept.grown {made written : Location → Prop} {a b : Files} (h : Kept made written a b)
    (hnew : ∀ loc, written loc → a.at? loc = none) : Grown a b := by
  refine ⟨h.ground, fun loc entry hat => ?_⟩
  rcases h.entry loc with hsame | ⟨-, hnone, -⟩ | ⟨hwritten, -⟩
  · rw [hsame, hat]
  · exact absurd hat (by simp [hnone])
  · exact absurd hat (by simp [hnew loc hwritten])

/-! ## §2. A directory where there is nothing. -/

/-- A directory that is put where there is nothing keeps everything else. -/
theorem put_directory {fs : Files} {loc : Location} (h : fs.at? loc = none) :
    Kept (· = loc) (fun _ => False) fs (fs.put loc .directory)
      ∧ (fs.put loc .directory).at? loc = some .directory := by
  have hne : loc ≠ [] := by
    rintro rfl
    exact absurd h (by simp [at?_nil])
  refine ⟨put_directory_kept h, ?_⟩
  rw [at?_put fs hne, if_pos rfl]

theorem makeAt_of_empty {fs : Files} {p : Path} {mayExist : Bool} {loc : Location}
    (hlink : linkAt? fs.links loc = none) (h : fs.at? loc = none) :
    fs.makeAt p mayExist loc = .ok (fs.put loc .directory, loc) := by
  unfold makeAt
  simp only [hlink, h]

/-- Only the last directory is made where the others are there. -/
theorem makeDirectories_of_locate {fs : Files} {p : Path} {mayExist : Bool} {loc : Location}
    (hdirect : fs.Direct p) (hlocate : fs.locate p = .ok loc) (hempty : fs.at? loc = none) :
    fs.makeDirectories p mayExist = (fs.put loc .directory, .ok ()) := by
  have hreach : fs.reach p (fs.routeTo p) = .ok loc := by
    rw [← hlocate, locate, hdirect.routeTo, hdirect.route]
  have hlink : linkAt? fs.links loc = none := by
    rw [locate_eq_ok hlocate]
    exact hdirect.linkAt?_placeOf
  obtain ⟨room, hsucc⟩ := Nat.exists_eq_add_one_of_ne_zero (show maxMissing ≠ 0 by decide)
  obtain ⟨anchor, parts⟩ := p
  have hmake : fs.makeAt ⟨anchor, parts⟩ mayExist loc = _ := makeAt_of_empty hlink hempty
  unfold makeDirectories
  rw [hsucc]
  unfold makeMissing
  simp only [hreach, hmake]
  rfl

/-- In an ordinary store, the names of a path can be followed to a directory, however
long their text. -/
structure Enters (fs : Files) (folder : Path) : Prop where
  ordinary : fs.Ordinary
  walk : fs.walk (fs.origin folder) folder.parts = .ok (fs.placeOf folder)
  directory : fs.at? (fs.placeOf folder) = some .directory

theorem enters_of_stat {fs : Files} {folder : Path} (hordinary : fs.Ordinary)
    (h : fs.stat folder = .ok .directory) : fs.Enters folder :=
  ⟨hordinary, ((hordinary.direct folder).locate_eq_ok_iff.mp (stat_eq_ok h).1).2.2,
    (stat_eq_ok h).2⟩

theorem Grown.enters {a b : Files} (h : Grown a b) {folder : Path} (hfolder : a.Enters folder) :
    b.Enters folder := by
  refine ⟨hfolder.ordinary.of_ground h.ground, ?_, ?_⟩
  · rw [origin_eq_of_ground h.ground, placeOf_eq_of_ground h.ground]
    exact h.kept.walk hfolder.walk
  · rw [placeOf_eq_of_ground h.ground]
    exact h.entry _ _ hfolder.directory

/-- What a walk leads to is an entry of a directory that the walk without its last
name leads to. -/
theorem walk_above {fs : Files} {loc loc' : Location} {names : List String} {name : String}
    (h : fs.walk loc (names ++ [name]) = .ok loc') :
    fs.walk loc names = .ok (names.foldl hop loc)
      ∧ fs.at? (names.foldl hop loc) = some .directory := by
  induction names generalizing loc with
  | nil =>
    rw [List.nil_append, walk_cons] at h
    split at h
    next => exact absurd h (by simp)
    next => exact absurd h (by simp)
    next hdirectory => exact ⟨rfl, hdirectory⟩
  | cons first rest ih =>
    rw [List.cons_append, walk_cons] at h
    rw [walk_cons]
    split at h
    next => exact absurd h (by simp)
    next => exact absurd h (by simp)
    next hdirectory =>
      split at h
      next => exact absurd h (by simp)
      next hshort =>
        simp only [if_neg hshort]
        exact ih h

/-- What a path leads to is an entry of a directory. -/
theorem enters_above {fs : Files} {folder : Path} {name : String} {entry : FileEntry}
    (hordinary : fs.Ordinary) (h : fs.stat (folder.child name) = .ok entry) :
    fs.Enters folder := by
  have hlocate := (stat_eq_ok h).1
  rw [(hordinary.direct _).locate_eq_ok_iff] at hlocate
  obtain ⟨hwalk, hdirectory⟩ := walk_above hlocate.2.2
  have hplace := (hordinary.direct folder).placeOf
  refine ⟨hordinary, ?_, ?_⟩
  · rw [hplace]
    exact hwalk
  · rw [hplace]
    exact hdirectory

/-- Nothing is in the way of an accepted path, and nothing at its end if there is
nothing there. -/
theorem Accepts.passable_of_empty {fs : Files} {p : Path} (h : fs.Accepts p)
    (hempty : fs.at? (fs.placeOf p) = none) : fs.Passable p := by
  refine ⟨h.direct, h.named, h.short, h.names, ?_⟩
  rintro loc ⟨n, rfl⟩
  rcases Nat.lt_or_ge n p.parts.length with hn | hn
  · refine (h.clear _ ⟨n, ?_⟩).1
    rw [Path.parent, List.dropLast_eq_take, List.take_take, Nat.min_eq_left (by omega)]
  · rw [List.take_of_length_le hn]
    simp [version?, hempty]

/-- **A new directory** can be made along an accepted path that leads to nothing. -/
theorem makeDirectories_of_empty {fs : Files} {folder : Path} {name : String}
    (h : fs.Accepts (folder.child name)) (hempty : fs.at? (fs.placeOf (folder.child name)) = none)
    (hroom : (folder.child name).parts.length < maxMissing) :
    ∃ fs', fs.makeDirectories (folder.child name) false = (fs', .ok ())
      ∧ fs'.stat (folder.child name) = .ok .directory := by
  obtain ⟨anchor, above⟩ := folder
  simp only [Path.child] at h hempty hroom ⊢
  cases hlocate : fs.locate ⟨anchor, above ++ [name]⟩ with
  | ok loc =>
    obtain rfl := locate_eq_ok hlocate
    obtain ⟨hkept, hdirectory⟩ := put_directory hempty
    exact ⟨_, makeDirectories_of_locate h.direct hlocate hempty,
      stat_of_locate (hkept.locate hlocate) hdirectory⟩
  | error e =>
    have hpassable := h.passable_of_empty hempty
    obtain ⟨rfl, -⟩ := hpassable.locate_error hlocate
    have hpassable' : fs.Passable ⟨anchor, above⟩ := by
      have := hpassable.dropLast
      rwa [List.dropLast_concat] at this
    obtain ⟨room, hsucc⟩ := Nat.exists_eq_add_one_of_ne_zero (show maxMissing ≠ 0 by decide)
    have hlength : above.length < room := by simpa [hsucc] using hroom
    obtain ⟨fs₁, hmissing, hlocate₁, hdirectory₁⟩ := makeMissing_of_passable hpassable' hlength
    have hkept₁ := (makeMissing_kept fs anchor room true above).1
    rw [hmissing] at hkept₁
    have hname : name.utf8ByteSize ≤ maxNameBytes := h.names name (by simp)
    have hwalk : fs₁.walk (fs.placeOf ⟨anchor, above⟩) [name]
        = .ok (fs.placeOf ⟨anchor, above ++ [name]⟩) := by
      rw [walk_name hdirectory₁ hname, h.direct.placeOf_concat]
    -- what was made on the way is not the directory itself
    have hempty₁ : fs₁.at? (fs.placeOf ⟨anchor, above ++ [name]⟩) = none := by
      rcases hkept₁.entry (fs.placeOf ⟨anchor, above ++ [name]⟩) with hsame | ⟨hway, -⟩ | ⟨hw, -⟩
      · rw [hsame, hempty]
      · refine absurd rfl (h.clear _ ?_).2
        simpa only [Path.parent, List.dropLast_concat] using hway
      · exact hw.elim
    have hlink₁ : linkAt? fs₁.links (fs.placeOf ⟨anchor, above ++ [name]⟩) = none := by
      rw [hkept₁.ground]
      exact h.direct.linkAt?_placeOf
    have hmake : fs₁.makeAt ⟨anchor, above ++ [name]⟩ false _ = _ := makeAt_of_empty hlink₁ hempty₁
    obtain ⟨hkept₂, hdirectory₂⟩ := put_directory hempty₁
    have hlast : fs₁.locate ⟨anchor, above ++ [name]⟩
        = .ok (fs.placeOf ⟨anchor, above ++ [name]⟩) := by
      have hplace : ∀ p, fs₁.placeOf p = fs.placeOf p := placeOf_eq_of_ground hkept₁.ground
      rw [← hplace] at hlocate₁ hdirectory₁ ⊢
      exact locate_concat (h.direct.of_ground hkept₁.ground) h.named hpassable.utf8ByteSize_le
        hname hlocate₁ hdirectory₁
    refine ⟨_, ?_, stat_of_locate (hkept₂.locate hlast) hdirectory₂⟩
    unfold makeDirectories
    rw [hsucc]
    unfold makeMissing
    simp only [hpassable.reach, hlocate, List.getLast?_concat, List.dropLast_concat, hmissing, hwalk,
      hmake]
    rfl

/-! ## §3. Children of a directory. -/

/-- A name that can be used for an entry of a directory. -/
structure Usable (folder : Path) (name : String) : Prop where
  named : (folder.child name).hasNull = false
  short : (folder.child name).toString.utf8ByteSize ≤ maxPathBytes
  brief : name.utf8ByteSize ≤ maxNameBytes

variable {fs : Files} {folder : Path} {name : String}

theorem locate_child (hfolder : fs.Enters folder) (h : Usable folder name) :
    fs.locate (folder.child name) = .ok (fs.placeOf (folder.child name)) := by
  have hdirect := hfolder.ordinary.direct (folder.child name)
  refine hdirect.locate_eq_ok_iff.mpr ⟨h.named, h.short, ?_⟩
  show fs.walk (fs.origin folder) (folder.parts ++ [name]) = _
  rw [walk_append hfolder.walk, walk_name hfolder.directory h.brief]
  exact congrArg Except.ok hdirect.placeOf_concat.symm

theorem at?_of_isPresent_eq_false {p : Path} {loc : Location} (hlocate : fs.locate p = .ok loc)
    (h : fs.isPresent p = false) : fs.at? loc = none := by
  cases hat : fs.at? loc with
  | none => rfl
  | some entry =>
    have hpresent := isPresent_iff.mpr ⟨entry, stat_of_locate hlocate hat⟩
    exact absurd hpresent (by simp [h])

/-- **A directory** can be made in another one where there is nothing. -/
theorem makeDirectories_child (hfolder : fs.Enters folder)
    (h : Usable folder name) (habsent : fs.isPresent (folder.child name) = false) :
    ∃ fs', fs.makeDirectories (folder.child name) false = (fs', .ok ())
      ∧ fs'.isPresent (folder.child name) = true := by
  have hlocate := locate_child hfolder h
  have hempty := at?_of_isPresent_eq_false hlocate habsent
  obtain ⟨hkept, hdirectory⟩ := put_directory hempty
  exact ⟨_, makeDirectories_of_locate (hfolder.ordinary.direct _) hlocate hempty,
    isPresent_iff.mpr ⟨_, stat_of_locate (hkept.locate hlocate) hdirectory⟩⟩

/-- **A file** can be written in a directory where there is nothing. -/
theorem write_child (hfolder : fs.Enters folder) (h : Usable folder name)
    (habsent : fs.isPresent (folder.child name) = false) (content : ByteArray) :
    ∃ fs', fs.write (folder.child name) content = (fs', .ok ()) ∧ Grown fs fs'
      ∧ fs'.isPresent (folder.child name) = true := by
  have hlocate := locate_child hfolder h
  have hempty := at?_of_isPresent_eq_false hlocate habsent
  have hkept := fs.write_kept (folder.child name) content
  obtain ⟨opened, hopen⟩ := openNew_of_locate hlocate (by simp [hempty])
  obtain ⟨-, hat, hresult⟩ := write_of_openNew hopen content
  have hfits : fs.fits content = true := by
    unfold fits
    rw [hfolder.ordinary.roomy]
  rw [hfits, if_pos rfl] at hresult
  have hhere := hat (fs.placeOf (folder.child name))
  rw [if_pos rfl] at hhere
  refine ⟨_, Prod.ext rfl hresult, hkept.grown ?_, ?_⟩
  · rintro loc rfl
    exact hempty
  · exact isPresent_iff.mpr ⟨_, stat_of_locate (hkept.locate hlocate) hhere⟩

end Files

namespace Project

open Files Compiler Session

/-! ## §4. The skeleton. -/

/-- The directory of the sources under a root. -/
def viewsOf (root : Path) : Path := root.child projectSource

/-- A skeleton can be made under a root of an ordinary store: its source directory is
there or can be made, and the names of what follows can be used. -/
structure Plantable (fs : Files) (root : Path) : Prop where
  ordinary : fs.Ordinary
  views : fs.stat (viewsOf root) = .ok .directory
    ∨ (fs.Accepts (viewsOf root) ∧ fs.at? (fs.placeOf (viewsOf root)) = none
        ∧ (viewsOf root).parts.length < maxMissing)
  output : Usable root projectOutput
  config : Usable root configName
  index : Usable (viewsOf root) "index.tml"
  about : Usable (viewsOf root) "about.tml"

/-- The paths of a skeleton. -/
def skeleton (root : Path) : List Path :=
  [viewsOf root, root.child projectOutput, root.child configName,
    (viewsOf root).child "index.tml", (viewsOf root).child "about.tml"]

/-- What a step of the skeleton comes to: it succeeds, the files have grown, and
something holds of them. -/
def Adds (s : Session) (P : Files → Prop) (result : Except Failure (List Path) × Session) : Prop :=
  ∃ created files', result = (.ok created, s.update files' s.compiler.cache s.compiler.stats)
    ∧ Grown s.files files' ∧ P files'

/-- One step after the other. -/
theorem Adds.bind {s : Session} {P Q : Files → Prop} {x : Action (List Path)}
    {f : List Path → Action (List Path)} (hx : Adds s P (s.run x))
    (hf : ∀ created files', Grown s.files files' → P files' →
      Adds (s.update files' s.compiler.cache s.compiler.stats) Q
        ((s.update files' s.compiler.cache s.compiler.stats).run (f created))) :
    Adds s Q (s.run (x >>= f)) := by
  obtain ⟨created, files', hrun, hgrown, hP⟩ := hx
  obtain ⟨created', files'', hrun', hgrown', hQ⟩ := hf created files' hgrown hP
  refine ⟨created', files'', ?_, hgrown.trans hgrown', hQ⟩
  rw [run_bind_of_ok s hrun, hrun']
  rfl

/-- What holds of the files in the end follows from what was there and what was
added. -/
theorem Adds.imp {s : Session} {P Q : Files → Prop} {result : Except Failure (List Path) × Session}
    (h : Adds s P result) (himp : ∀ files', Grown s.files files' → P files' → Q files') :
    Adds s Q result := by
  obtain ⟨created, files', hresult, hgrown, hP⟩ := h
  exact ⟨created, files', hresult, hgrown, himp files' hgrown hP⟩

/-- A directory is there, or it is made. -/
theorem addDirectory_adds {s : Session} {P : Files → Prop} {folder : Path} {created : List Path}
    (hthere : s.files.isPresent folder = true → P s.files)
    (hnew : s.files.isPresent folder = false →
      ∃ files', s.files.makeDirectories folder false = (files', .ok ()) ∧ P files') :
    Adds s P (s.run (addDirectory created folder)) := by
  unfold addDirectory
  rw [run_bind_of_ok s s.run_get]
  cases hpresent : s.files.isPresent folder with
  | true =>
    rw [if_pos rfl]
    exact ⟨created, s.files, rfl, Grown.refl _, hthere hpresent⟩
  | false =>
    obtain ⟨files', hmade, hP⟩ := hnew hpresent
    have hkept := s.files.makeDirectories_kept folder false
    rw [hmade] at hkept
    have hrun : s.run (Action.makeDirectories folder false)
        = (.ok (), s.update files' s.compiler.cache s.compiler.stats) := by
      unfold Action.makeDirectories
      rw [run_changeFiles, hmade]
      rfl
    rw [if_neg (by simp), run_bind_of_ok s hrun]
    exact ⟨_, files', rfl, hkept.grown fun _ hw => hw.elim, hP⟩

/-- A file in a directory is there, or it is written. -/
theorem addFile_adds {s : Session} {folder : Path} {name content : String} {created : List Path}
    (hfolder : s.files.Enters folder) (h : Usable folder name) :
    Adds s (fun files => files.isPresent (folder.child name) = true)
      (s.run (addFile created (folder.child name, content))) := by
  unfold addFile
  rw [run_bind_of_ok s s.run_get]
  cases hpresent : s.files.isPresent (folder.child name) with
  | true =>
    rw [if_pos rfl]
    exact ⟨created, s.files, rfl, Grown.refl _, hpresent⟩
  | false =>
    obtain ⟨files', hwrite, hgrown, hthere⟩ := write_child hfolder h hpresent content.toUTF8
    have hrun : s.run (Action.writeText (folder.child name) content)
        = (.ok (), s.update files' s.compiler.cache s.compiler.stats) := by
      unfold Action.writeText
      rw [run_changeFiles, hwrite]
      rfl
    rw [if_neg (by simp), run_bind_of_ok s hrun]
    exact ⟨_, files', rfl, hgrown, hthere⟩

/-- The directory of the sources is there, or it is made with all above it. -/
theorem views_adds {s : Session} {root : Path} (h : Plantable s.files root)
    {created : List Path} :
    Adds s (fun files => files.stat (viewsOf root) = .ok .directory)
      (s.run (addDirectory created (viewsOf root))) := by
  refine addDirectory_adds (fun hpresent => ?_) fun habsent => ?_
  · rcases h.views with hstat | ⟨-, hempty, -⟩
    · exact hstat
    · obtain ⟨entry, hstat⟩ := isPresent_iff.mp hpresent
      exact absurd (stat_eq_ok hstat).2 (by simp [hempty])
  · rcases h.views with hstat | ⟨haccepts, hempty, hroom⟩
    · exact absurd (isPresent_iff.mpr ⟨_, hstat⟩) (by simp [habsent])
    · exact makeDirectories_of_empty haccepts hempty hroom

/-- **The files of a skeleton**, one after the other: each is there in the end. -/
theorem addFiles_adds (files : List (Path × String)) {s : Session} {created : List Path}
    (h : ∀ file ∈ files, ∃ folder name, file.1 = folder.child name ∧ s.files.Enters folder
      ∧ Usable folder name) :
    Adds s (fun files' => ∀ file ∈ files, files'.isPresent file.1 = true)
      (s.run (files.foldlM addFile created)) := by
  induction files generalizing s created with
  | nil => exact ⟨created, s.files, rfl, Grown.refl _, by simp⟩
  | cons file rest ih =>
    obtain ⟨path, content⟩ := file
    obtain ⟨folder, name, hpath, hfolder, husable⟩ := h (path, content) (by simp)
    obtain rfl : path = folder.child name := hpath
    rw [List.foldlM_cons]
    refine (addFile_adds hfolder husable).bind fun created' files' hgrown hfirst => ?_
    have hothers : ∀ file ∈ rest, ∃ folder name, file.1 = folder.child name
        ∧ files'.Enters folder ∧ Usable folder name := by
      intro file hfile
      obtain ⟨folder, name, hpath, hfolder, husable⟩ := h file (by simp [hfile])
      exact ⟨folder, name, hpath, hgrown.enters hfolder, husable⟩
    refine (ih hothers).imp fun files'' hgrown' hrest file hfile => ?_
    rcases List.mem_cons.mp hfile with rfl | hfile
    · exact hgrown'.isPresent hfirst
    · exact hrest file hfile

/-- **A skeleton can be made** under a root: all of it is there in the end, and
nothing that was there before has changed. -/
theorem create_adds {s : Session} {root : Path} (h : Plantable s.files root) :
    Adds s (fun files => ∀ p ∈ skeleton root, files.isPresent p = true)
      (s.run (create root)) := by
  have hfolders : Adds s
      (fun files => files.stat (viewsOf root) = .ok .directory
        ∧ files.isPresent (root.child projectOutput) = true)
      (s.run ([viewsOf root, root.child projectOutput].foldlM addDirectory [])) := by
    rw [List.foldlM_cons]
    refine (views_adds h).bind fun created files' hgrown hviews => ?_
    simp only [List.foldlM_cons, List.foldlM_nil, bind_pure]
    have houtput : Adds (s.update files' s.compiler.cache s.compiler.stats)
        (fun files => files.isPresent (root.child projectOutput) = true)
        (Session.run _ (addDirectory created (root.child projectOutput))) :=
      addDirectory_adds (fun hpresent => hpresent)
        (makeDirectories_child (enters_above (h.ordinary.of_ground hgrown.ground) hviews) h.output)
    exact houtput.imp fun files'' hgrown hpresent => ⟨hgrown.stat hviews, hpresent⟩
  -- the directories stay while the files are added to them
  refine hfolders.bind fun created files' hgrown ⟨hviews, houtput⟩ => ?_
  have hordinary : files'.Ordinary := h.ordinary.of_ground hgrown.ground
  have hroot : files'.Enters root := enters_above hordinary hviews
  have hsources : files'.Enters (viewsOf root) := enters_of_stat hordinary hviews
  refine (addFiles_adds _ ?_).imp fun files'' hgrown hfiles => ?_
  · simp only [List.mem_cons, List.not_mem_nil, or_false, forall_eq_or_imp, forall_eq]
    exact ⟨⟨root, _, rfl, hroot, h.config⟩, ⟨viewsOf root, _, rfl, hsources, h.index⟩,
      ⟨viewsOf root, _, rfl, hsources, h.about⟩⟩
  · have hviews' : files''.isPresent (viewsOf root) = true :=
      isPresent_iff.mpr ⟨_, hgrown.stat hviews⟩
    simp only [List.mem_cons, List.not_mem_nil, or_false, forall_eq_or_imp, forall_eq] at hfiles
    simp only [skeleton, List.mem_cons, List.not_mem_nil, or_false, forall_eq_or_imp, forall_eq]
    exact ⟨hviews', hgrown.isPresent houtput, hfiles⟩

end Project

end Offside
