/-
  Offside.Proofs.CompileFile
  ──────────────────────────
  What a compiler remembers, and when that can be relied on.

  An entry of the cache is a page that was made of a file as it stood in some
  store (`MadeFrom`), and compiling a file adds no other entry (`Recalls`).
  Where every file that has changed since has a later modification time
  (`Forward`), an entry that the cache takes for valid is the page of the file
  as it stands now.  So a file is compiled to what `fileOutcome` says, which
  knows of no cache.

  A file that cannot be compiled is reported or ends the work.  Only the first
  is left if the file is text, the paths can be used at all and the generator
  works (`compileFile_reported`).
-/
import Offside.Proofs.FileStore

namespace Offside

/-! ## §1. The entries of a cache. -/

namespace Cache

variable {κ α : Type} [BEq κ] {c : Cache κ α} {key : κ} {now : Time}

/-- What is left after an entry is dropped was there before. -/
theorem mem_of_mem_erase {x : κ × Entry α} (h : x ∈ (c.erase key).entries) : x ∈ c.entries :=
  (List.mem_filter.mp h).1

/-- Promoting an entry adds nothing but it. -/
theorem mem_promote {e : Entry α} {x : κ × Entry α} (h : x ∈ (c.promote key e).entries) :
    x ∈ c.entries ∨ x = (key, e) := by
  rcases List.mem_append.mp h with hold | hnew
  · exact .inl (mem_of_mem_erase hold)
  · exact .inr (List.mem_singleton.mp hnew)

/-- Testing an entry adds nothing. -/
theorem mem_of_mem_isValid {mtime : Time} {x : κ × Entry α}
    (h : x ∈ (c.isValid now key mtime).2.entries) : x ∈ c.entries := by
  unfold isValid at h
  split at h
  next => exact h
  next =>
    split at h
    next => exact mem_of_mem_erase h
    next => exact h

/-- Storing adds one entry and may push one out. -/
theorem mem_set {value : α} {mtime : Option Time} {x : κ × Entry α}
    (h : x ∈ (c.set now key value mtime).entries) :
    x ∈ c.entries ∨ x = (key, ⟨value, now, mtime⟩) := by
  unfold set at h
  simp only at h
  split at h
  next => exact mem_promote h
  next =>
    split at h
    next =>
      rcases List.mem_append.mp h with hold | hnew
      · exact .inl (List.mem_of_mem_drop hold)
      · exact .inr (List.mem_singleton.mp hnew)
    next =>
      rcases List.mem_append.mp h with hold | hnew
      · exact .inl hold
      · exact .inr (List.mem_singleton.mp hnew)

/-- A key is valid only through an entry that is neither too old nor
outdated. -/
theorem isValid_cases (c : Cache κ α) (now : Time) (key : κ) (mtime : Time) :
    (∃ e, c.find? key = some e ∧ c.expired now e = false ∧ outdated mtime e = false)
      ∨ ∃ cache, c.isValid now key mtime = (false, cache) := by
  unfold isValid
  cases c.find? key with
  | none => exact .inr ⟨c, rfl⟩
  | some e =>
    by_cases h : (c.expired now e || outdated mtime e) = true
    · simp only [if_pos h]
      exact .inr ⟨_, rfl⟩
    · obtain ⟨hage, hnew⟩ : c.expired now e = false ∧ outdated mtime e = false := by
        simpa using h
      exact .inl ⟨e, rfl, hage, hnew⟩

/-- Nothing that is remembered has no age that could not be told. -/
theorem isUndated_of_empty (h : c.entries = []) : c.isUndated now key = false := by
  unfold isUndated find?
  rw [h]
  rfl

variable [LawfulBEq κ]

/-- An entry that is found is there. -/
theorem mem_of_find? {e : Entry α} (h : c.find? key = some e) : (key, e) ∈ c.entries := by
  unfold find? at h
  obtain ⟨⟨key', e'⟩, hfind, rfl⟩ := Option.map_eq_some_iff.mp h
  have hkey : key' = key := by simpa using List.find?_some hfind
  exact hkey ▸ List.mem_of_find?_eq_some hfind

/-- Looking up adds nothing. -/
theorem mem_of_mem_get {x : κ × Entry α} (h : x ∈ (c.get now key).2.entries) :
    x ∈ c.entries := by
  unfold get at h
  split at h
  next => exact h
  next e hfind =>
    split at h
    next => exact mem_of_mem_erase h
    next =>
      rcases mem_promote h with hold | rfl
      · exact hold
      · exact mem_of_find? hfind

end Cache

/-! ## §2. Clocks. -/

namespace Time

/-- A time that double precision can hold. -/
def Fits (t : Time) : Prop := t.real?.isSome

/-- Of two such times the one can be counted from the other. -/
theorem since_isSome {a b : Time} (ha : a.Fits) (hb : b.Fits) : (a.since b).isSome := by
  obtain ⟨x, hx⟩ := Option.isSome_iff_exists.mp ha
  obtain ⟨y, hy⟩ := Option.isSome_iff_exists.mp hb
  unfold since
  cases a <;> cases b <;> simp [hx, hy]

/-- From a moment to itself there is a time, however large it is. -/
theorem since_self_isSome (t : Time) : (t.since t).isSome := by
  cases t <;> rfl

/-- No file is later than itself. -/
theorem before_self (x : Binary64) : (Time.real x).before (.real x) = false := by
  cases x with
  | finite negative mantissa exponent => simp [before]
  | infinite negative => cases negative <;> rfl
  | nan => rfl

end Time

/-! ## §3. Pages that depend on nothing but their source. -/

/-- A formatter that gives for a markup always the same answer, and leaves the
files alone. -/
def Formatter.IsFunction (f : Formatter) : Prop :=
  ∀ files files' html,
    (f.format files html).result = (f.format files' html).result
      ∧ (f.format files html).files = none

section Function

variable {g : Generator} (hf : g.formatter.IsFunction)
include hf

/-- **A formatter that is a function** makes the same page of a forest whatever the
files are, and changes none. -/
theorem Generator.generate_of_isFunction (files files' : Files) (forest : List Node)
    (options : Option Options) :
    (g.generate files forest options).result = (g.generate files' forest options).result
      ∧ (g.generate files forest options).files = none := by
  unfold generate
  simp only
  split
  next => exact ⟨rfl, rfl⟩
  next =>
    split
    next => exact ⟨rfl, rfl⟩
    next =>
      split
      next => exact ⟨rfl, rfl⟩
      next =>
        obtain ⟨hresult, hfiles⟩ := hf files files' (markup (options.getD g.options) forest)
        unfold settled
        rw [hresult, hfiles]
        constructor
        · split <;> rfl
        · split <;> rfl

namespace Compiler

/-- So the page of a source does not depend on the files. -/
theorem pageFrom_of_isFunction (files files' : Files) (source : String) :
    pageFrom g files source = pageFrom g files' source := by
  unfold pageFrom
  cases Document.parse source with
  | error e => rfl
  | ok forest =>
    simp only
    rw [(Generator.generate_of_isFunction hf files files' forest none).1]

theorem filesAfterFile_of_isFunction (files : Files) (path : Path) :
    filesAfterFile g files path = files := by
  unfold filesAfterFile
  cases sourceText files path with
  | error e => rfl
  | ok source =>
    simp only
    unfold filesAfter
    cases Document.parse source with
    | error e => rfl
    | ok forest =>
      simp only
      rw [(Generator.generate_of_isFunction hf files files forest none).2]
      rfl

/-- Equal files have equal pages, wherever and whenever they stand. -/
theorem pageOfFile_of_content {files files' : Files} {path path' : Path} {content : ByteArray}
    {mtime mtime' : Binary64} {executable executable' : Bool}
    (h : files.stat path = .ok (.file content mtime executable))
    (h' : files'.stat path' = .ok (.file content mtime' executable')) :
    pageOfFile g files path = pageOfFile g files' path' := by
  have htext : sourceText files path = sourceText files' path' := by
    unfold sourceText
    rw [Files.read_of_stat h, Files.read_of_stat h']
  unfold pageOfFile
  rw [htext]
  cases sourceText files' path' with
  | error e => rfl
  | ok text => exact pageFrom_of_isFunction hf files files' text

end Compiler

end Function

/-! ## §4. Files that change. -/

/-- If the content is another one, the time is later. -/
def Later (a b : Files.Version) : Prop := a.1 ≠ b.1 → (Time.real a.2).before (.real b.2) = true

instance : DecidableRel Later := fun _ _ => inferInstanceAs (Decidable (_ → _))

namespace Files

/-- The versions of the file that a path leads to in a row of stores. -/
def versions (stores : List Files) (p : Path) : List Version :=
  stores.filterMap fun fs => fs.version? (fs.placeOf p)

/-- If a path leads to different files in two stores, that of the second is
later. -/
def ForwardAt (p : Path) (earlier later : Files) : Prop :=
  ∀ a ∈ earlier.version? (earlier.placeOf p), ∀ b ∈ later.version? (later.placeOf p), Later a b

/-- A store that stays goes forward. -/
theorem forwardAt_refl (p : Path) (fs : Files) : ForwardAt p fs fs := by
  intro a ha b hb hne
  rw [ha] at hb
  injection hb with hb
  exact absurd (congrArg Prod.fst hb) hne

/-- Versions that follow one another go forward. -/
theorem forwardAt_of_versions {stores : List Files} {p : Path}
    (h : (versions stores p).Pairwise Later) : stores.Pairwise (ForwardAt p) :=
  List.pairwise_filterMap.mp h

/-- Every file that has changed between two stores, as seen from the root directory, is
later in the second. -/
def Forward (earlier later : Files) : Prop := ∀ loc, ForwardAt ⟨.root, loc⟩ earlier later

/-- A store whose versions go forward everywhere goes forward. -/
theorem forward_of_versions {stores : List Files}
    (h : ∀ loc, (versions stores ⟨.root, loc⟩).Pairwise Later) : stores.Pairwise Forward := by
  have hat := fun loc => forwardAt_of_versions (h loc)
  clear h
  induction stores with
  | nil => exact List.Pairwise.nil
  | cons fs rest ih =>
    have hcons := fun loc => List.pairwise_cons.mp (hat loc)
    exact List.pairwise_cons.mpr
      ⟨fun later hlater loc => (hcons loc).1 later hlater, ih fun loc => (hcons loc).2⟩

/-- The locations of some stores. -/
def locations (stores : List Files) : List Location :=
  stores.flatMap fun fs => fs.entries.map (·.1)

/-- Without links, a row of versions has to be looked at only where some store has
something. -/
theorem forall_versions {stores : List Files} {P : List Version → Prop}
    (hlinks : ∀ fs ∈ stores, fs.links = []) (hnil : P [])
    (h : ∀ loc ∈ locations stores, P (stores.filterMap fun fs => fs.version? loc))
    (names : List String) : P (versions stores ⟨.root, names⟩) := by
  have hplace : versions stores ⟨.root, names⟩
      = stores.filterMap fun fs => fs.version? (names.foldl hop []) := by
    refine List.filterMap_congr fun fs hfs => ?_
    rw [(direct_of_unlinked (hlinks fs hfs) _).placeOf]
    rfl
  rw [hplace]
  by_cases hloc : names.foldl hop [] ∈ locations stores
  · exact h _ hloc
  · have hnone : ∀ fs ∈ stores, fs.version? (names.foldl hop []) = none := by
      intro fs hfs
      unfold version?
      split
      next content mtime executable hat =>
        refine absurd (List.mem_flatMap.mpr ⟨fs, hfs, ?_⟩) hloc
        exact List.mem_map.mpr ⟨_, mem_entries_of_file hat, rfl⟩
      next => rfl
    rw [List.filterMap_eq_nil_iff.mpr hnone]
    exact hnil

end Files

/-! ## §5. What compiling a file adds to the memory. -/

namespace Compiler

open Session

/-- An entry holds the page of a file as it stood in a store, with its
modification time there. -/
def MadeFrom (g : Generator) (files : Files) (path : Path) (e : Cache.Entry String) : Prop :=
  (∃ content mtime executable,
      files.stat path = .ok (.file content mtime executable) ∧ e.mtime = some (.real mtime))
    ∧ pageOfFile g files path = .ok e.value

/-- An entry is as well made from any store in which the file is the same. -/
theorem MadeFrom.of_stat {g : Generator} (hf : g.formatter.IsFunction) {files files' : Files}
    {path : Path} {e : Cache.Entry String} (h : MadeFrom g files path e) {content : ByteArray}
    {mtime : Binary64} {executable : Bool}
    (hstat : files.stat path = .ok (.file content mtime executable))
    (hstat' : files'.stat path = .ok (.file content mtime executable)) :
    MadeFrom g files' path e := by
  obtain ⟨⟨content', mtime', executable', hfile, hmtime⟩, hpage⟩ := h
  rw [hstat] at hfile
  injection hfile with hfile
  injection hfile with hcontent hmtime' hexecutable
  subst hmtime'
  exact ⟨⟨content, mtime, executable, hstat', hmtime⟩,
    (pageOfFile_of_content hf hstat' hstat).trans hpage⟩

/-- A session remembers what another one does, and otherwise only the page that
was made just then of one of the files there. -/
structure Recalls (path : Path) (s s' : Session) : Prop where
  generator : s'.compiler.generator = s.compiler.generator
  now : s'.now = s.now
  entries : ∀ x ∈ s'.compiler.cache.entries,
    x ∈ s.compiler.cache.entries
      ∨ (x.1 = path ∧ x.2.storedAt = s.now ∧ MadeFrom s.compiler.generator s.files path x.2)

namespace Recalls

variable {path : Path} {s s' : Session}

/-- Nothing done recalls nothing. -/
theorem refl (path : Path) (s : Session) : Recalls path s s :=
  ⟨rfl, rfl, fun _ hx => .inl hx⟩

/-- Telling something recalls nothing. -/
theorem tell (h : Recalls path s s') (text : String) : Recalls path s (s'.tell text) :=
  ⟨h.generator, h.now, h.entries⟩

/-- What is then done to the files is not remembered. -/
theorem update_files (h : Recalls path s s') (files : Files) :
    Recalls path s (s'.update files s'.compiler.cache s'.compiler.stats) :=
  ⟨h.generator, h.now, h.entries⟩

end Recalls

/-- **What a page comes from**: from an entry that is not outdated, or from the
file; either way the session remembers nothing else.  Only where the age of an
entry cannot be told there is no page. -/
theorem run_pageOf_cases (s : Session) {path : Path} {content : ByteArray} {mtime : Binary64}
    {executable : Bool} (hstat : s.files.stat path = .ok (.file content mtime executable)) :
    ∃ result s', s.run (pageOf path (.real mtime)) = (result, s') ∧ Recalls path s s' ∧
      ((s.compiler.cache.isUndated s.now path = true ∧ result = .error .entryUndated
          ∧ s'.files = s.files)
        ∨ (∃ e, s.compiler.cache.find? path = some e ∧ Cache.outdated (.real mtime) e = false
            ∧ result = .ok e.value ∧ s'.files = s.files)
        ∨ (result = pageOfFile s.compiler.generator s.files path
            ∧ s'.files = filesAfterFile s.compiler.generator s.files path)) := by
  by_cases hdated : s.compiler.cache.isUndated s.now path = true
  · exact ⟨_, s, run_pageOf_of_undated s path _ hdated, Recalls.refl path s, .inl ⟨hdated, rfl, rfl⟩⟩
  rw [Bool.not_eq_true] at hdated
  rcases Cache.isValid_cases s.compiler.cache s.now path (.real mtime) with
    ⟨e, hfind, hage, hnew⟩ | ⟨cache, hmiss⟩
  -- a hit moves its entry to the end and adds none
  · obtain ⟨told, hrun⟩ := run_pageOf_of_hit s path (.real mtime) hdated hfind hage hnew
    refine ⟨_, _, hrun, ⟨rfl, rfl, ?_⟩, .inr (.inl ⟨e, hfind, hnew, rfl, rfl⟩)⟩
    intro x hx
    exact .inl (Cache.mem_of_mem_get hx)
  -- a miss adds the page that is made now, if there is one
  · obtain ⟨told, hrun⟩ := run_pageOf_of_miss s path (.real mtime) hdated hmiss
    refine ⟨_, _, hrun, ⟨rfl, rfl, ?_⟩, .inr (.inr ⟨rfl, rfl⟩)⟩
    have hkept : ∀ x ∈ cache.entries, x ∈ s.compiler.cache.entries := by
      intro x hx
      have hx' : x ∈ (s.compiler.cache.isValid s.now path (.real mtime)).2.entries := by
        rw [hmiss]
        exact hx
      exact Cache.mem_of_mem_isValid hx'
    intro x hx
    cases hpage : pageOfFile s.compiler.generator s.files path with
    | error e =>
      have hx : x ∈ cache.entries := by simpa [stored, hpage] using hx
      exact .inl (hkept x hx)
    | ok html =>
      have hx : x ∈ (cache.set s.now path html (some (.real mtime))).entries := by
        simpa [stored, hpage] using hx
      rcases Cache.mem_set hx with hold | rfl
      · exact .inl (hkept x hold)
      · exact .inr ⟨rfl, rfl, ⟨content, mtime, executable, hstat, rfl⟩, hpage⟩

/-! ## §6. Compiling a file. -/

/-- What compiling a file gives, and the files afterwards, with no cache at
all. -/
def fileOutcome (g : Generator) (files : Files) (source : Path) (output : Option Path) :
    Except Failure Path × Files :=
  match files.unresolved? source with
  | some e => (.error (.files e), files)
  | none =>
    match files.look (files.resolve source) with
    | .error e => (.error (.files e), files)
    | .ok (some (.file ..)) =>
      match pageOfFile g files (files.resolve source) with
      | .error e => (.error e, files)
      | .ok html =>
        let target := output.getD (source.withSuffix outputSuffix)
        let published := publish files target html
        ((published.2.mapError Failure.files).map fun _ => target, published.1)
    | .ok _ => (.error (.inputMissing (files.resolve source).toString), files)

/-- The files with a page at its target, if there is one. -/
def withPage (files : Files) (target : Path) : Except Failure String → Files
  | .error _ => files
  | .ok html => (publish files target html).1

/-- Putting a page into its place writes to no other file. -/
theorem withPage_kept (files : Files) (target : Path) (page : Except Failure String) :
    Files.Kept (files.OnWay target.parent) (· = files.placeOf target) files
      (withPage files target page) := by
  cases page with
  | error e => exact Files.Kept.refl _ _ files
  | ok html => exact publish_kept files target html

/-- What a file comes to is the store with its page. -/
theorem fileOutcome_files (g : Generator) {files : Files} {source : Path} (output : Option Path)
    {content : ByteArray} {mtime : Binary64} {executable : Bool}
    (hresolved : files.unresolved? source = none)
    (hlook : files.look (files.resolve source) = .ok (some (.file content mtime executable))) :
    (fileOutcome g files source output).2
      = withPage files (output.getD (source.withSuffix outputSuffix))
          (pageOfFile g files (files.resolve source)) := by
  unfold fileOutcome
  simp only [hresolved, hlook]
  cases pageOfFile g files (files.resolve source) <;> rfl

/-- **Compiling a file** fails at once because there is none, or asks for its
page and publishes it. -/
theorem run_compileFile_cases (s : Session) (source : Path) (output : Option Path) :
    (∃ e, s.run (compileFile source output) = (.error e, s)
        ∧ (s.files.unresolved? source = none → e.isReported = true)
        ∧ ∀ g, fileOutcome g s.files source output = (.error e, s.files))
      ∨ ∃ content mtime executable, s.files.unresolved? source = none
          ∧ s.files.look (s.files.resolve source) = .ok (some (.file content mtime executable)) := by
  unfold fileOutcome
  cases hresolved : s.files.unresolved? source with
  | some e =>
    exact .inl ⟨_, run_compileFile_of_unresolved s source output hresolved, by simp, fun g => rfl⟩
  | none =>
    simp only [true_implies]
    match hlook : s.files.look (s.files.resolve source) with
    | .error e =>
      exact .inl ⟨_, run_compileFile_of_error s source output hresolved hlook,
        Files.look_refuses hlook, fun g => rfl⟩
    | .ok none =>
      exact .inl ⟨_, run_compileFile_of_missing s source output hresolved hlook (by simp), rfl,
        fun g => rfl⟩
    | .ok (some .directory) =>
      exact .inl ⟨_, run_compileFile_of_missing s source output hresolved hlook (by simp), rfl,
        fun g => rfl⟩
    | .ok (some (.file content mtime executable)) =>
      exact .inr ⟨content, mtime, executable, trivial, rfl⟩

/-- Compiling a file leaves the session with nothing else to remember than its
page. -/
theorem run_compileFile_recalls (s : Session) (source : Path) (output : Option Path) :
    Recalls (s.files.resolve source) s (s.run (compileFile source output)).2 := by
  rcases run_compileFile_cases s source output with
    ⟨e, hrun, -, -⟩ | ⟨content, mtime, executable, hresolved, hlook⟩
  · rw [hrun]
    exact Recalls.refl _ s
  · obtain ⟨result, s', hpage, hrecalls, -⟩ := run_pageOf_cases s (Files.look_eq_ok_some hlook)
    cases result with
    | error e =>
      rw [run_compileFile_of_page_error output hresolved hlook hpage]
      exact hrecalls
    | ok html =>
      obtain ⟨told, hrun⟩ := run_compileFile_of_page output hresolved hlook hpage
      rw [hrun]
      exact (hrecalls.update_files _).tell told

/-! ## §7. Compiling a file as if there were no cache. -/

/-- Every entry was made from one of these stores. -/
def Faithful (g : Generator) (past : List Files) (cache : Cache Path String) : Prop :=
  ∀ x ∈ cache.entries, ∃ files ∈ past, MadeFrom g files x.1 x.2

/-- An entry that is not outdated is the page of the file as it stands now. -/
theorem value_of_forward {g : Generator} (hf : g.formatter.IsFunction) {earlier files : Files}
    {source : Path} {e : Cache.Entry String} {content : ByteArray} {mtime : Binary64}
    {executable : Bool} (hmade : MadeFrom g earlier (files.resolve source) e)
    (hforward : Files.ForwardAt (files.resolve source) earlier files)
    (hstat : files.stat (files.resolve source) = .ok (.file content mtime executable))
    (hnew : Cache.outdated (.real mtime) e = false) :
    pageOfFile g files (files.resolve source) = .ok e.value := by
  obtain ⟨⟨content', mtime', executable', hstat', hmtime⟩, hpage⟩ := hmade
  -- with another content the file would be later now, and the entry outdated
  have hsame : content' = content := by
    by_contra hne
    have hbefore := hforward _ (Files.version?_of_stat hstat') _ (Files.version?_of_stat hstat) hne
    unfold Cache.outdated at hnew
    rw [hmtime] at hnew
    exact absurd hnew (by simp [hbefore])
  subst hsame
  rw [← hpage]
  exact pageOfFile_of_content hf hstat hstat'

section NoCache

variable {g : Generator} (hf : g.formatter.IsFunction) {past : List Files} {s : Session}
  (hg : s.compiler.generator = g) (hfaithful : Faithful g past s.compiler.cache) (source : Path)
  (hforward : ∀ files ∈ past, Files.ForwardAt (s.files.resolve source) files s.files)
  (hdated : s.compiler.cache.isUndated s.now (s.files.resolve source) = false)
include hf hg hfaithful hforward hdated

/-- Remembered or made, the page is the one of the file as it stands now. -/
theorem run_pageOf_eq {content : ByteArray} {mtime : Binary64} {executable : Bool}
    (hstat : s.files.stat (s.files.resolve source) = .ok (.file content mtime executable)) :
    ∃ s', s.run (pageOf (s.files.resolve source) (.real mtime))
        = (pageOfFile g s.files (s.files.resolve source), s') ∧ s'.files = s.files := by
  obtain ⟨result, s', hpage, -, hcases⟩ := run_pageOf_cases s hstat
  refine ⟨s', ?_, ?_⟩
  · rw [hpage]
    rcases hcases with ⟨hundated, -, -⟩ | ⟨e, hfind, hnew, rfl, -⟩ | ⟨rfl, -⟩
    · exact absurd hundated (by simp [hdated])
    · obtain ⟨earlier, hpast, hmade⟩ := hfaithful _ (Cache.mem_of_find? hfind)
      rw [value_of_forward hf hmade (hforward earlier hpast) hstat hnew]
    · rw [hg]
  · rcases hcases with ⟨-, -, h⟩ | ⟨-, -, -, -, h⟩ | ⟨-, h⟩
    · exact h
    · exact h
    · rw [h, hg, filesAfterFile_of_isFunction hf]

/-- **A faithful memory cannot be told from none**: a file is compiled to what
it is without a cache. -/
theorem run_compileFile_eq (output : Option Path) :
    (s.run (compileFile source output)).1 = (fileOutcome g s.files source output).1
      ∧ (s.run (compileFile source output)).2.files
          = (fileOutcome g s.files source output).2 := by
  rcases run_compileFile_cases s source output with
    ⟨e, hrun, -, houtcome⟩ | ⟨content, mtime, executable, hresolved, hlook⟩
  · rw [hrun, houtcome g]
    exact ⟨rfl, rfl⟩
  · obtain ⟨s', hpage, hfiles⟩ :=
      run_pageOf_eq hf hg hfaithful source hforward hdated (Files.look_eq_ok_some hlook)
    unfold fileOutcome
    simp only [hresolved, hlook]
    cases hresult : pageOfFile g s.files (s.files.resolve source) with
    | error e =>
      rw [hresult] at hpage
      rw [run_compileFile_of_page_error output hresolved hlook hpage]
      exact ⟨rfl, hfiles⟩
    | ok html =>
      rw [hresult] at hpage
      obtain ⟨told, hrun⟩ := run_compileFile_of_page output hresolved hlook hpage
      rw [hrun, hfiles]
      exact ⟨rfl, rfl⟩

end NoCache

/-! ## §8. A memory that is faithful to the stores so far. -/

/-- A session whose entries were made from the stores of the past, by a
generator and at times that its clock can tell. -/
structure Coherent (g : Generator) (past : List Files) (s : Session) : Prop where
  generator : s.compiler.generator = g
  clock : s.now.Fits
  dated : ∀ x ∈ s.compiler.cache.entries, x.2.storedAt.Fits
  faithful : Faithful g past s.compiler.cache

namespace Coherent

variable {g : Generator} {past past' : List Files} {s s' : Session}

/-- An empty cache is coherent. -/
theorem of_empty (hclock : s.now.Fits) (h : s.compiler.cache.entries = []) :
    Coherent s.compiler.generator [] s :=
  ⟨rfl, hclock, by simp [h], by intro x hx; simp [h] at hx⟩

/-- A session that has forgotten some of its entries is coherent. -/
theorem forget (h : Coherent g past s) (hpast : past ⊆ past')
    (hgenerator : s'.compiler.generator = s.compiler.generator) (hclock : s'.now.Fits)
    (hentries : s'.compiler.cache.entries ⊆ s.compiler.cache.entries) : Coherent g past' s' := by
  refine ⟨hgenerator.trans h.generator, hclock, fun x hx => h.dated x (hentries hx), ?_⟩
  intro x hx
  obtain ⟨files, hfiles, hmade⟩ := h.faithful x (hentries hx)
  exact ⟨files, hpast hfiles, hmade⟩

/-- A session that recalls a coherent one is coherent, if its new page too was
made from a store of the past. -/
theorem recalls (h : Coherent g past s) {path : Path} (hrecalls : Recalls path s s')
    (hpast : past ⊆ past')
    (hnew : ∀ e, MadeFrom g s.files path e → ∃ files ∈ past', MadeFrom g files path e) :
    Coherent g past' s' := by
  refine ⟨hrecalls.generator.trans h.generator, ?_, ?_, ?_⟩
  · rw [hrecalls.now]
    exact h.clock
  · intro x hx
    rcases hrecalls.entries x hx with hold | ⟨-, hstored, -⟩
    · exact h.dated x hold
    · rw [hstored]
      exact h.clock
  · intro x hx
    rcases hrecalls.entries x hx with hold | ⟨hpath, -, hmade⟩
    · obtain ⟨files, hmem, hmade⟩ := h.faithful x hold
      exact ⟨files, hpast hmem, hmade⟩
    · rw [hpath]
      exact hnew x.2 (h.generator ▸ hmade)

/-- In a coherent cache the age of every entry can be told. -/
theorem isUndated_eq_false (h : Coherent g past s) (path : Path) :
    s.compiler.cache.isUndated s.now path = false := by
  unfold Cache.isUndated
  cases hfind : s.compiler.cache.find? path with
  | none => rfl
  | some e =>
    have hsome : (s.now.since e.storedAt).isSome :=
      Time.since_isSome h.clock (h.dated _ (Cache.mem_of_find? hfind))
    simpa [Cache.ageless] using hsome

end Coherent

/-! ## §9. Failures that are reported. -/

/-- A generator that leaves the files alone. -/
def LeavesFiles (g : Generator) : Prop := ∀ files source, filesAfter g files source = files

/-- A formatter that is a function leaves the files alone. -/
theorem leavesFiles_of_isFunction {g : Generator} (hf : g.formatter.IsFunction) : LeavesFiles g := by
  intro files source
  unfold filesAfter
  cases Document.parse source with
  | error e => rfl
  | ok forest =>
    simp only
    rw [(Generator.generate_of_isFunction hf files files forest none).2]
    rfl

/-- A generator that leaves the files alone does so for a file too. -/
theorem LeavesFiles.filesAfterFile_eq {g : Generator} (h : LeavesFiles g) (files : Files)
    (path : Path) : filesAfterFile g files path = files := by
  unfold filesAfterFile
  cases sourceText files path with
  | error e => rfl
  | ok source => exact h files source

/-- A generator that fails for no other reason than that it was disposed of, and
leaves the files alone. -/
structure Steady (g : Generator) : Prop where
  fails : ∀ files source e, pageFrom g files source = .error (.generate e) → e = .disposed
  files : ∀ files source, filesAfter g files source = files

namespace Steady

variable {g : Generator} (h : Steady g)
include h

theorem leavesFiles : LeavesFiles g := h.files

/-- A steady generator fails only in ways that are reported. -/
theorem pageFrom_reported {files : Files} {source : String} {e : Failure}
    (hpage : pageFrom g files source = .error e) : e.isReported = true := by
  have hfails := h.fails files source
  unfold pageFrom at hpage hfails
  cases hparse : Document.parse source with
  | error e' =>
    rw [hparse] at hpage
    injection hpage with hpage
    exact hpage ▸ rfl
  | ok forest =>
    rw [hparse] at hpage hfails
    cases hresult : (g.generate files forest none).result with
    | error e' =>
      simp only [hresult, Except.mapError] at hpage hfails
      injection hpage with hpage
      rw [← hpage, hfails e' rfl]
      rfl
    | ok html => simp [hresult, Except.mapError] at hpage

/-- A page of a file that is text can only fail in a way that is reported. -/
theorem pageOfFile_reported {files : Files} {path : Path} {content : ByteArray} {mtime : Binary64}
    {executable : Bool} (hstat : files.stat path = .ok (.file content mtime executable))
    (htext : (decoded? content).isSome) {e : Failure} (hpage : pageOfFile g files path = .error e) :
    e.isReported = true := by
  obtain ⟨text, htext⟩ := Option.isSome_iff_exists.mp htext
  have hsource : sourceText files path = .ok text := by
    unfold sourceText
    rw [Files.read_of_stat hstat]
    simp only [htext]
  unfold pageOfFile at hpage
  rw [hsource] at hpage
  exact h.pageFrom_reported hpage

end Steady

section CompileFile

variable {s : Session}

/-- Compiling a file changes nothing but its target. -/
theorem compileFile_kept (hleaves : LeavesFiles s.compiler.generator) (source : Path)
    (output : Option Path) :
    Files.Kept (s.files.OnWay (output.getD (source.withSuffix outputSuffix)).parent)
      (· = s.files.placeOf (output.getD (source.withSuffix outputSuffix))) s.files
      (s.run (compileFile source output)).2.files := by
  rcases run_compileFile_cases s source output with
    ⟨e, hrun, -, -⟩ | ⟨content, mtime, executable, hresolved, hlook⟩
  · rw [hrun]
    exact Files.Kept.refl _ _ _
  · obtain ⟨result, s', hpage, -, hcases⟩ := run_pageOf_cases s (Files.look_eq_ok_some hlook)
    have hfiles : s'.files = s.files := by
      rcases hcases with ⟨-, -, h⟩ | ⟨-, -, -, -, h⟩ | ⟨-, h⟩
      · exact h
      · exact h
      · rw [h, hleaves.filesAfterFile_eq]
    cases result with
    | error e =>
      rw [run_compileFile_of_page_error output hresolved hlook hpage, hfiles]
      exact Files.Kept.refl _ _ _
    | ok html =>
      obtain ⟨told, hrun⟩ := run_compileFile_of_page output hresolved hlook hpage
      rw [hrun, hfiles]
      exact publish_kept s.files _ html

/-- **A file fails in a way that is reported** if it is text, its path and that of
its target can be used and the age of its entry can be told. -/
theorem compileFile_reported (hsteady : Steady s.compiler.generator) (source : Path)
    (output : Option Path) (hresolved : s.files.unresolved? source = none)
    (htarget : (output.getD (source.withSuffix outputSuffix)).hasNull = false)
    (hparts : (output.getD (source.withSuffix outputSuffix)).parts.length ≤ Files.maxMissing)
    (hdated : s.compiler.cache.isUndated s.now (s.files.resolve source) = false)
    (htext : ∀ v ∈ s.files.version? (s.files.placeOf (s.files.resolve source)),
      (decoded? v.1).isSome)
    {e : Failure} (h : (s.run (compileFile source output)).1 = .error e) : e.isReported = true := by
  rcases run_compileFile_cases s source output with
    ⟨e', hrun, hreported, -⟩ | ⟨content, mtime, executable, -, hlook⟩
  · rw [hrun] at h
    injection h with h
    exact h ▸ hreported hresolved
  · have hstat := Files.look_eq_ok_some hlook
    obtain ⟨result, s', hpage, -, hcases⟩ := run_pageOf_cases s hstat
    cases result with
    | error e' =>
      -- the cache gives no failure of its own here, so it is the page's
      rw [run_compileFile_of_page_error output hresolved hlook hpage] at h
      injection h with h
      subst h
      rcases hcases with ⟨hundated, -, -⟩ | ⟨-, -, -, ⟨⟩, -⟩ | ⟨hfile, -⟩
      · exact absurd hundated (by simp [hdated])
      · exact hsteady.pageOfFile_reported hstat
          (htext _ (Files.version?_of_stat hstat)) hfile.symm
    | ok html =>
      obtain ⟨told, hrun⟩ := run_compileFile_of_page output hresolved hlook hpage
      rw [hrun] at h
      cases hpublish : (publish s'.files (output.getD (source.withSuffix outputSuffix)) html).2 with
      | error e' =>
        simp only [hpublish, Except.mapError, Except.map] at h
        injection h with h
        exact h ▸ publish_refuses htarget hparts hpublish
      | ok u => simp [hpublish, Except.mapError, Except.map] at h

end CompileFile

/-! ## §10. A small compiler. -/

/-- A generator of minified pages. -/
def minifier : Generator where
  options := { minify := true }
  formatter := ⟨fun _ html => { log := [], result := .ok html }⟩

theorem minifier_isFunction : minifier.formatter.IsFunction := fun _ _ _ => ⟨rfl, rfl⟩

theorem minifier_steady : Steady minifier := by
  refine ⟨?_, ?_⟩
  · intro files source e h
    unfold pageFrom at h
    cases hparse : Document.parse source with
    | error e' => simp [hparse] at h
    | ok forest =>
      simp only [hparse] at h
      exact absurd h (by simp [minifier, Generator.generate, Markup.overflow?, Except.mapError])
  · intro files source
    unfold filesAfter
    cases Document.parse source with
    | error e => rfl
    | ok forest => simp [minifier, Generator.generate, Markup.overflow?]

/-- The path of these names from the working directory. -/
def inHere (names : List String) : Path := ⟨.working, names⟩

/-- The store with a directory `w` and files in it, each written at a time. -/
def holding (files : List (List String × ByteArray × Int)) : Files :=
  files.foldl (fun fs file => fs.apply (.write (inHere file.1) file.2.1 (.whole file.2.2) false))
    (Files.fresh ["w"])

/-- A session that makes minified pages and remembers one of them for a
minute. -/
def minifying (files : Files) : Session where
  compiler := { generator := minifier, cache := Cache.empty 1 (.whole 60) }
  files

end Compiler

end Offside
