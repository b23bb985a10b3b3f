/-
  Offside.Proofs.Watching
  ───────────────────────
  A watch leaves no stale page behind.

  A watch polls, rests while others change the files and the clock goes on, and
  polls again (`rounds`).  Two tests decide whether a file is compiled: the watch
  compares its time with the one seen last, the cache asks whether it is later
  than the remembered one.  Every time that was seen belongs to a version whose
  page stands at its target (`Settled`); one file keeps that up (`lookAt_polling`),
  so a poll does, and so does a whole watch.

  The two tests agree only while changed files get later times.  A file that is
  replaced by an older one is looked at again, but its old page is written
  (`older_file_is_stale`).
-/
import Offside.Proofs.Globs
import Offside.CommandLine.Watch

namespace Offside.Watching

open Compiler CommandLine Session

/-! ## §1. What a watch does with one file. -/

theorem Seen.get?_put_self (seen : Seen) (path : Path) (mtime : Binary64) :
    (seen.put path mtime).get? path = some mtime := by
  simp [Seen.get?, Seen.put]

theorem Seen.get?_forget_self (seen : Seen) (path : Path) : (seen.forget path).get? path = none := by
  unfold Seen.get? Seen.forget
  rw [List.find?_filter]
  simp

theorem Seen.get?_forget_of_ne (seen : Seen) {path other : Path} (h : other ≠ path) :
    (seen.forget path).get? other = seen.get? other := by
  unfold Seen.get? Seen.forget
  rw [List.find?_filter]
  congr 2
  funext e
  by_cases he : e.1 = other
  · simp [he, h]
  · simp [he]

theorem Seen.get?_of_forget {seen : Seen} {path other : Path} {mtime : Binary64}
    (h : (seen.forget path).get? other = some mtime) : seen.get? other = some mtime := by
  by_cases hsame : other = path
  · rw [hsame, Seen.get?_forget_self] at h
    exact absurd h (by simp)
  · rwa [Seen.get?_forget_of_ne seen hsame] at h

theorem Seen.get?_put_of_ne (seen : Seen) {path other : Path} (h : other ≠ path)
    (mtime : Binary64) : (seen.put path mtime).get? other = seen.get? other := by
  have hbeq : (path == other) = false := by simpa using h.symm
  rw [← Seen.get?_forget_of_ne seen h]
  unfold Seen.get? Seen.put
  rw [List.find?_cons_of_neg (by simp [hbeq])]

/-- A watched file is compiled, and a failure that is reported is told. -/
theorem run_compileWatched (s : Session) (settings : Settings) (path : Path) :
    (∃ told, s.run (compileWatched settings path)
        = (.ok (), (s.run (compileFile path (watchTarget s.files settings path))).2.tell told))
      ∨ ∃ e, (s.run (compileFile path (watchTarget s.files settings path))).1 = .error e
        ∧ e.isReported = false
        ∧ s.run (compileWatched settings path)
          = (.error e, (s.run (compileFile path (watchTarget s.files settings path))).2) := by
  unfold compileWatched
  rw [run_bind_of_ok s s.run_get]
  simp only
  rw [run_tryCatch, run_bind]
  rcases s.run (compileFile path (watchTarget s.files settings path)) with ⟨result, s'⟩
  cases result with
  | ok output => exact .inl ⟨_, rfl⟩
  | error e =>
    by_cases hreported : e.isReported = true
    · simp only [if_pos hreported]
      exact .inl ⟨_, rfl⟩
    · simp only [if_neg hreported]
      exact .inr ⟨e, rfl, by simpa using hreported, rfl⟩

/-- **Looking at a file**: it is left alone if it was seen, and compiled otherwise. -/
theorem run_lookAt_of_file {s : Session} (settings : Settings) (seen : Seen) {path : Path}
    {content : ByteArray} {mtime : Binary64} {executable : Bool}
    (hstat : s.files.stat path = .ok (.file content mtime executable)) :
    s.run (lookAt settings seen path)
      = if seen.get? path == some mtime then (.ok seen, s)
        else s.run (compileWatched settings path >>= fun _ => pure (seen.put path mtime)) := by
  unfold lookAt
  rw [run_bind_of_ok s s.run_get, hstat]
  simp only
  by_cases hseen : (seen.get? path == some mtime) = true
  · rw [if_pos hseen, if_pos hseen]
    rfl
  · rw [if_neg hseen, if_neg hseen]

/-- A directory that has come in its place is taken for a change. -/
theorem run_lookAt_of_directory {s : Session} (settings : Settings) (seen : Seen) {path : Path}
    (hstat : s.files.stat path = .ok .directory) :
    s.run (lookAt settings seen path)
      = s.run (compileWatched settings path >>= fun _ => pure (seen.forget path)) := by
  unfold lookAt
  rw [run_bind_of_ok s s.run_get, hstat]

/-- What is not there is left alone, if it can be told that it is not. -/
theorem run_lookAt_of_error {s : Session} (settings : Settings) (seen : Seen) {path : Path}
    {e : FileError} (hstat : s.files.stat path = .error e) :
    s.run (lookAt settings seen path) = (.ok seen, s)
      ∨ s.run (lookAt settings seen path) = (.error (.files e), s) ∧ e.isRefusal = false := by
  unfold lookAt
  rw [run_bind_of_ok s s.run_get, hstat]
  cases e with
  | refused cause text => exact .inl rfl
  | nullInPath => exact .inr ⟨rfl, rfl⟩
  | tooDeep => exact .inr ⟨rfl, rfl⟩

/-! ## §2. What is watched, and where it goes. -/

/-- A file that a watch looks at. -/
def Watched (settings : Settings) (fs : Files) (path : Path) : Prop :=
  ∃ paths, watchedFiles fs settings = .ok paths ∧ path ∈ paths

/-- Where a watched file goes. -/
def targetFor (settings : Settings) (path : Path) : Path :=
  match settings.input with
  | none => targetOf settings.projectSource (some settings.projectOutput) path
  | some input =>
    if path = input then settings.output.getD (path.withSuffix outputSuffix)
    else
      match settings.output with
      | some out => targetOf input (some out) path
      | none => path.withSuffix outputSuffix

/-- What is watched is the input itself, or files of a directory. -/
theorem watched_input {settings : Settings} {fs : Files} {path input : Path}
    (hinput : settings.input = some input) (h : Watched settings fs path) :
    (fs.stat input = .ok .directory ∧ path ≠ input) ∨ path = input := by
  obtain ⟨paths, hpaths, hmem⟩ := h
  unfold watchedFiles at hpaths
  simp only [hinput] at hpaths
  match hlook : fs.look input with
  | .error e => simp [hlook, bind, Except.bind] at hpaths
  | .ok (some .directory) =>
    have hlist : fs.glob input settings.recursive isWatchedName = .ok paths := by
      simpa [hlook, bind, Except.bind, pure, Except.pure] using hpaths
    -- a file of a directory has a longer path
    obtain ⟨name, rest, hbelow⟩ := Glob.within_of_reached ((Glob.mem_glob hlist path).mp hmem)
    refine .inl ⟨Files.look_eq_ok_some hlook, fun hsame => ?_⟩
    have hparts := congrArg (fun p : Path => p.parts.length) (hsame.symm.trans hbelow)
    simp [Directory.within] at hparts
  | .ok none =>
    have hlist : paths = [input] := by
      simpa [hlook, bind, Except.bind, pure, Except.pure] using hpaths.symm
    exact .inr (by simpa [hlist] using hmem)
  | .ok (some (.file content mtime executable)) =>
    have hlist : paths = [input] := by
      simpa [hlook, bind, Except.bind, pure, Except.pure] using hpaths.symm
    exact .inr (by simpa [hlist] using hmem)

/-- The target of a watched file does not change while the others are
compiled. -/
theorem watchTarget_getD {settings : Settings} {made written : Location → Prop} {fs fs' : Files}
    (hkept : Files.Kept made written fs fs') {path : Path} (hwatched : Watched settings fs path)
    {content : ByteArray} {mtime : Binary64} {executable : Bool}
    (hstat : fs'.stat path = .ok (.file content mtime executable)) :
    (watchTarget fs' settings path).getD (path.withSuffix outputSuffix)
      = targetFor settings path := by
  unfold watchTarget targetFor
  cases hinput : settings.input with
  | none => rfl
  | some input =>
    simp only
    rcases watched_input hinput hwatched with ⟨hdirectory, hne⟩ | rfl
    · have hstill : fs'.isDirectory input = true := by
        obtain ⟨hlocate, hat⟩ := Files.stat_eq_ok hdirectory
        unfold Files.isDirectory
        rw [Files.stat_of_locate (hkept.locate hlocate) (hkept.directory hat)]
      rw [if_pos hstill, if_neg hne]
      cases settings.output <;> rfl
    · have hfile : fs'.isDirectory path = false := by
        unfold Files.isDirectory
        rw [hstat]
      rw [if_neg (by simp [hfile]), if_pos rfl]

/-! ## §3. Targets that are out of each other's way. -/

/-- Paths that lead where they lead when resolved, with targets that differ, are
not passed on the way to another target, and are none of the paths. -/
structure Apart (settings : Settings) (base : Files) (V : Path → Prop) : Prop where
  straight : ∀ p, V p → base.placeOf (base.resolve p) = base.placeOf p
  targets : ∀ p q, V p → V q → p ≠ q →
    base.placeOf (targetFor settings p) ≠ base.placeOf (targetFor settings q)
  ways : ∀ p q, V p → V q →
    ¬ base.OnWay (targetFor settings q).parent (base.placeOf (targetFor settings p))
  sources : ∀ p q, V p → V q → base.placeOf (targetFor settings p) ≠ base.placeOf q

/-- Two stores lead the same way along a path, along what it resolves to, and along its
target. -/
structure Aligned (settings : Settings) (base fs : Files) (path : Path) : Prop where
  place : fs.placeOf path = base.placeOf path
  resolve : fs.resolve path = base.resolve path
  resolved : fs.placeOf (base.resolve path) = base.placeOf (base.resolve path)
  target : fs.placeOf (targetFor settings path) = base.placeOf (targetFor settings path)
  ways : ∀ loc, fs.OnWay (targetFor settings path).parent loc
    ↔ base.OnWay (targetFor settings path).parent loc

/-- So do stores with the same working directory and the same links. -/
theorem aligned_of_ground {settings : Settings} {base fs : Files}
    (h : fs.toGround = base.toGround) (path : Path) : Aligned settings base fs path where
  place := Files.placeOf_eq_of_ground h _
  resolve := Files.resolve_eq_of_ground h _
  resolved := Files.placeOf_eq_of_ground h _
  target := Files.placeOf_eq_of_ground h _
  ways loc := by rw [Files.onWay_eq_of_ground h]

/-- A store in which paths lead where they do in another one, the watched files can be
reached, and their pages written. -/
structure Ready (settings : Settings) (base : Files) (V : Path → Prop) (fs : Files) : Prop where
  aligned : ∀ path, V path → Aligned settings base fs path
  reachable : ∀ path, Watched settings fs path → (fs.version? (fs.placeOf path)).isSome →
    fs.locate path = .ok (fs.placeOf path)
      ∧ fs.locate (fs.resolve path) = .ok (fs.placeOf path)
  accepts : ∀ path, Watched settings fs path → fs.Accepts (targetFor settings path)

theorem Ready.stat {settings : Settings} {base fs : Files} {V : Path → Prop}
    (h : Ready settings base V fs)
    {path : Path} (hwatched : Watched settings fs path) {content : ByteArray} {mtime : Binary64}
    {executable : Bool} (hat : fs.at? (fs.placeOf path) = some (.file content mtime executable)) :
    fs.stat path = .ok (.file content mtime executable)
      ∧ fs.stat (fs.resolve path) = .ok (.file content mtime executable) := by
  have hthere : (fs.version? (fs.placeOf path)).isSome := by simp [Files.version?, hat]
  obtain ⟨hlocate, hresolve⟩ := h.reachable path hwatched hthere
  exact ⟨Files.stat_of_locate hlocate hat, Files.stat_of_locate hresolve hat⟩

/-- No target is one of the files that are watched. -/
theorem Ready.not_target {settings : Settings} {base fs : Files} {V : Path → Prop}
    (h : Ready settings base V fs) (hapart : Apart settings base V) {path : Path} (hV : V path) :
    ¬ ∃ q, V q ∧ fs.placeOf path = base.placeOf (targetFor settings q) := by
  rintro ⟨q, hq, hplace⟩
  rw [(h.aligned path hV).place] at hplace
  exact hapart.sources q path hq hV hplace.symm

/-- A path leads where it leads when resolved. -/
theorem Ready.straight {settings : Settings} {base fs : Files} {V : Path → Prop}
    (h : Ready settings base V fs) (hapart : Apart settings base V) {path : Path} (hV : V path) :
    fs.placeOf (fs.resolve path) = fs.placeOf path := by
  have haligned := h.aligned path hV
  rw [haligned.resolve, haligned.resolved, haligned.place, hapart.straight path hV]

/-- A store of which nothing can keep a poll from going on: what is watched can
be listed, has usable names and is text. -/
structure Readable (settings : Settings) (fs : Files) : Prop where
  listed : ∃ paths, watchedFiles fs settings = .ok paths
  named : ∀ path, Watched settings fs path → path.hasNull = false
  text : ∀ path, Watched settings fs path →
    ∀ v ∈ fs.version? (fs.placeOf path), (decoded? v.1).isSome

/-! ## §4. One file of a poll. -/

section Poll

variable (settings : Settings) (base : Files) (V : Path → Prop) (g : Generator)
  (past : List Files)

/-- Every time that was seen belongs to a version whose page, if it has one,
stands at its target. -/
def Settled (seen : Seen) (fs : Files) : Prop :=
  ∀ path mtime, seen.get? path = some mtime → V path ∧ ∃ earlier ∈ past, ∃ content executable,
    earlier.stat path = .ok (.file content mtime executable)
      ∧ ∀ html, pageOfFile g earlier path = .ok html →
          ∃ t, fs.version? (base.placeOf (targetFor settings path)) = some (html.toUTF8, t)

/-- A poll that began with the store `start` and has looked at the files
`done`. -/
structure Polling (start : Files) (done : List Path) (seen : Seen) (s : Session) : Prop where
  coherent : Coherent g past s
  kept : Files.Kept (fun loc => ∃ q, V q ∧ base.OnWay (targetFor settings q).parent loc)
    (fun loc => ∃ q, V q ∧ loc = base.placeOf (targetFor settings q)) start s.files
  settled : Settled settings base V g past seen s.files
  done : ∀ path ∈ done, ∀ content mtime executable,
    start.stat path = .ok (.file content mtime executable) → seen.get? path = some mtime

variable {settings base V g past} {start : Files} {done : List Path} {seen : Seen} {s : Session}
  (hapart : Apart settings base V) (hready : Ready settings base V start)
  (h : Polling settings base V g past start done seen s)
  {path : Path} (hwatched : Watched settings start path) (hV : V path)
  {content : ByteArray} {mtime : Binary64} {executable : Bool}
include hapart hready h hwatched hV

/-- A watched file is what it was when the poll began. -/
theorem Polling.stat_iff :
    s.files.stat path = .ok (.file content mtime executable)
      ↔ start.stat path = .ok (.file content mtime executable) := by
  have hunwritten := hready.not_target hapart hV
  constructor
  · intro hstat
    have hat := (Files.stat_eq_ok hstat).2
    rw [Files.placeOf_eq_of_ground h.kept.ground] at hat
    exact (hready.stat hwatched ((h.kept.file_iff hunwritten).mp hat)).1
  · exact h.kept.stat hunwritten

/-- It can also be reached along its resolved path. -/
theorem Polling.stat_resolve (hstat : start.stat path = .ok (.file content mtime executable)) :
    start.stat (start.resolve path) = .ok (.file content mtime executable)
      ∧ s.files.stat (s.files.resolve path) = .ok (.file content mtime executable) := by
  have hresolved := (hready.stat hwatched (Files.stat_eq_ok hstat).2).2
  refine ⟨hresolved, ?_⟩
  rw [Files.resolve_eq_of_ground h.kept.ground]
  refine h.kept.stat ?_ hresolved
  rw [hready.straight hapart hV]
  exact hready.not_target hapart hV

/-- The target of a watched file still accepts its page. -/
theorem Polling.accepts : s.files.Accepts (targetFor settings path) := by
  refine (hready.accepts path hwatched).kept h.kept ?_ ?_
  · rintro loc ⟨q, hq, rfl⟩ hway
    exact hapart.ways q path hq hV (((hready.aligned path hV).ways _).mp hway)
  · rintro loc ⟨q, hq, hway⟩ rfl
    rw [(hready.aligned path hV).target] at hway
    exact hapart.ways path q hV hq hway

omit hapart hwatched in
/-- The target is still where it was. -/
theorem Polling.placeOf_target :
    s.files.placeOf (targetFor settings path) = base.placeOf (targetFor settings path) :=
  (Files.placeOf_eq_of_ground h.kept.ground _).trans (hready.aligned path hV).target

/-- If the file is text and the generator works, the poll goes on. -/
theorem Polling.compileFile_reported
    (hstat : start.stat path = .ok (.file content mtime executable))
    (hreadable : Readable settings start) (hsteady : Steady g) {e : Failure}
    (he : (s.run (Compiler.compileFile path (watchTarget s.files settings path))).1 = .error e) :
    e.isReported = true := by
  have hnow := (h.stat_iff hapart hready hwatched hV).mpr hstat
  have hresolved := (h.stat_resolve hapart hready hwatched hV hstat).2
  have htarget := watchTarget_getD h.kept hwatched hnow
  have haccepts := hready.accepts path hwatched
  have hsteady' : Steady s.compiler.generator := h.coherent.generator ▸ hsteady
  refine Compiler.compileFile_reported hsteady' path _ (Files.unresolved?_of_stat hnow) ?_ ?_
    (h.coherent.isUndated_eq_false _) ?_ he
  · rw [htarget]
    exact haccepts.named
  · rw [htarget]
    exact haccepts.shallow
  · intro v hv
    rw [Files.version?_of_stat hresolved] at hv
    exact hreadable.text path hwatched v ((Files.version?_of_stat hstat).trans hv)

variable (hstat : start.stat path = .ok (.file content mtime executable))
include hstat

/-- What was seen is settled again once the page of a changed file was written:
the other targets are elsewhere. -/
theorem Polling.settled_withPage (hstart : start ∈ past) :
    Settled settings base V g past (seen.put path mtime)
      (withPage s.files (targetFor settings path) (pageOfFile g start path)) := by
  intro q m hq
  by_cases hqp : q = path
  · subst hqp
    rw [Seen.get?_put_self] at hq
    injection hq with hq
    subst hq
    refine ⟨hV, start, hstart, content, executable, hstat, fun html hhtml => ?_⟩
    rw [hhtml, ← h.placeOf_target hready hV]
    exact publish_eq_ok (publish_of_accepts (h.accepts hapart hready hwatched hV) html)
  · rw [Seen.get?_put_of_ne seen hqp] at hq
    obtain ⟨hVq, earlier, hearlier, c, x, hstatq, hstands⟩ := h.settled q m hq
    refine ⟨hVq, earlier, hearlier, c, x, hstatq, fun html hhtml => ?_⟩
    rw [(withPage_kept s.files (targetFor settings path) (pageOfFile g start path)).version? ?_]
    · exact hstands html hhtml
    · rw [h.placeOf_target hready hV]
      exact hapart.targets q path hVq hV hqp

variable (hf : g.formatter.IsFunction)
  (hpast : ∀ earlier ∈ past, Aligned settings base earlier path)
  (hforward : ∀ earlier ∈ past, Files.ForwardAt path earlier start)
include hf hpast hforward

/-- The page that is written for a changed file, whether remembered or made, is
that of the file as the poll found it. -/
theorem Polling.files_compileFile :
    (s.run (Compiler.compileFile path (watchTarget s.files settings path))).2.files
      = withPage s.files (targetFor settings path) (pageOfFile g start path) := by
  have hnow := (h.stat_iff hapart hready hwatched hV).mpr hstat
  have hresolved := (h.stat_resolve hapart hready hwatched hV hstat).2
  have hpage : pageOfFile g s.files (s.files.resolve path) = pageOfFile g start path :=
    pageOfFile_of_content hf hresolved hstat
  -- the file is as the poll found it, so later than every other content that is remembered
  have hlater : ∀ earlier ∈ past,
      Files.ForwardAt (s.files.resolve path) earlier s.files := by
    intro earlier hearlier a ha b hb
    have haligned := hpast earlier hearlier
    rw [Files.resolve_eq_of_ground h.kept.ground, (hready.aligned path hV).resolve,
      haligned.resolved, hapart.straight path hV, ← haligned.place] at ha
    rw [Files.resolve_eq_of_ground h.kept.ground, Files.placeOf_eq_of_ground h.kept.ground,
      hready.straight hapart hV, h.kept.version? (hready.not_target hapart hV)] at hb
    exact hforward earlier hearlier a ha b hb
  rw [(run_compileFile_eq hf h.coherent.generator h.coherent.faithful path hlater
    (h.coherent.isUndated_eq_false _) _).2, fileOutcome_files g _ (Files.unresolved?_of_stat hnow)
    (Files.look_of_stat hresolved), hpage, watchTarget_getD h.kept hwatched hnow]

/-- **A changed file**: after it was compiled its page stands at its target, and
that of every other file is untouched. -/
theorem Polling.compileFile (hstart : start ∈ past) :
    Polling settings base V g past start (path :: done) (seen.put path mtime)
      (s.run (compileFile path (watchTarget s.files settings path))).2 := by
  obtain ⟨hresolved, hresolved'⟩ := h.stat_resolve hapart hready hwatched hV hstat
  have hfiles := h.files_compileFile hapart hready hwatched hV hstat hf hpast hforward
  refine ⟨?_, ?_, ?_, ?_⟩
  · -- what the cache learns now was made from the files at the start of the poll
    refine h.coherent.recalls (run_compileFile_recalls s path _) (List.Subset.refl past) ?_
    intro e hmade
    refine ⟨start, hstart, hmade.of_stat hf hresolved' ?_⟩
    rw [Files.resolve_eq_of_ground h.kept.ground]
    exact hresolved
  · rw [hfiles]
    refine h.kept.trans ((withPage_kept _ _ _).mono ?_ ?_)
    · intro loc hloc
      rw [Files.onWay_eq_of_ground h.kept.ground] at hloc
      exact ⟨path, hV, ((hready.aligned path hV).ways loc).mp hloc⟩
    · rintro loc rfl
      exact ⟨path, hV, h.placeOf_target hready hV⟩
  · rw [hfiles]
    exact h.settled_withPage hapart hready hwatched hV hstat hstart
  · intro q hq c m x hstatq
    by_cases hqp : q = path
    · subst hqp
      rw [hstat] at hstatq
      injection hstatq with hstatq
      injection hstatq with _ hm _
      rw [Seen.get?_put_self, hm]
    · rw [Seen.get?_put_of_ne seen hqp]
      exact h.done q ((List.mem_cons.mp hq).resolve_left hqp) c m x hstatq

end Poll

section Poll

variable {settings : Settings} {base : Files} {V : Path → Prop} {g : Generator}
  {past : List Files} {start : Files} {done : List Path} {seen : Seen} {s : Session}

theorem Polling.tell (h : Polling settings base V g past start done seen s) (text : String) :
    Polling settings base V g past start done seen (s.tell text) :=
  ⟨h.coherent.forget (List.Subset.refl past) rfl h.coherent.clock (List.Subset.refl _), h.kept,
    h.settled, h.done⟩

/-- A file that needs no compiling has been looked at. -/
theorem Polling.skip (h : Polling settings base V g past start done seen s) {path : Path}
    (hskip : ∀ content mtime executable,
      start.stat path = .ok (.file content mtime executable) → seen.get? path = some mtime) :
    Polling settings base V g past start (path :: done) seen s := by
  refine ⟨h.coherent, h.kept, h.settled, ?_⟩
  intro q hq
  rcases List.mem_cons.mp hq with rfl | hq
  · exact hskip
  · exact h.done q hq

variable (hapart : Apart settings base V) (hready : Ready settings base V start)
  (hf : g.formatter.IsFunction) (hstart : start ∈ past)
  (hpast : ∀ path, V path → ∀ earlier ∈ past, Aligned settings base earlier path)
  (hforward : ∀ path, V path → ∀ earlier ∈ past, Files.ForwardAt path earlier start)
include hapart hready hf hstart hpast hforward

omit hf hstart hpast hforward in
/-- A directory in the place of a file is told of, and nothing is done. -/
theorem Polling.directory (h : Polling settings base V g past start done seen s) {path : Path}
    (hwatched : Watched settings start path) (hV : V path)
    (hdirectory : s.files.stat path = .ok .directory) :
    ∃ told, s.run (lookAt settings seen path) = (.ok (seen.forget path), s.tell told)
      ∧ Polling settings base V g past start (path :: done) (seen.forget path) (s.tell told) := by
  have hplace : s.files.placeOf (s.files.resolve path) = s.files.placeOf path := by
    rw [Files.resolve_eq_of_ground h.kept.ground, Files.placeOf_eq_of_ground h.kept.ground,
      Files.placeOf_eq_of_ground h.kept.ground, hready.straight hapart hV]
  obtain ⟨e, hrun, hreported⟩ : ∃ e, s.run (Compiler.compileFile path
      (watchTarget s.files settings path)) = (.error e, s) ∧ e.isReported = true := by
    rcases run_compileFile_cases s path (watchTarget s.files settings path) with
      ⟨e, hrun, hreported, -⟩ | ⟨content, mtime, executable, -, hlook⟩
    · exact ⟨e, hrun, hreported (Files.unresolved?_of_stat hdirectory)⟩
    · have hfile := (Files.stat_eq_ok (Files.look_eq_ok_some hlook)).2
      rw [hplace, (Files.stat_eq_ok hdirectory).2] at hfile
      exact absurd hfile (by simp)
  rw [run_lookAt_of_directory settings seen hdirectory]
  rcases run_compileWatched s settings path with ⟨told, hwatch⟩ | ⟨e', he', hunreported, -⟩
  · rw [hrun] at hwatch
    refine ⟨told, run_bind_of_ok s hwatch _, Polling.tell ?_ told⟩
    refine ⟨h.coherent, h.kept, fun q mtime hq => h.settled q mtime (Seen.get?_of_forget hq), ?_⟩
    intro q hq content mtime executable hstat
    -- it was no file when the poll began, or it would still be one
    have hne : q ≠ path := by
      rintro rfl
      have hstill := (h.stat_iff hapart hready hwatched hV).mpr hstat
      rw [hdirectory] at hstill
      exact absurd hstill (by simp)
    rw [Seen.get?_forget_of_ne seen hne]
    exact h.done q ((List.mem_cons.mp hq).resolve_left hne) content mtime executable hstat
  · rw [hrun] at he'
    obtain rfl := Except.error.inj he'
    exact absurd hreported (by simp [hunreported])

/-- **One file of a poll** is looked at, unless it is one that keeps the poll from
going on. -/
theorem lookAt_polling (h : Polling settings base V g past start done seen s) {path : Path}
    (hwatched : Watched settings start path) (hV : V path) :
    (∃ seen' s', s.run (lookAt settings seen path) = (.ok seen', s')
        ∧ Polling settings base V g past start (path :: done) seen' s')
      ∨ ∃ e s', s.run (lookAt settings seen path) = (.error e, s')
        ∧ ¬ (Readable settings start ∧ Steady g) := by
  by_cases hfile : ∃ content mtime executable,
      s.files.stat path = .ok (.file content mtime executable)
  · obtain ⟨content, mtime, executable, hnow⟩ := hfile
    have hstat := (h.stat_iff hapart hready hwatched hV).mp hnow
    rw [run_lookAt_of_file settings seen hnow]
    by_cases hseen : (seen.get? path == some mtime) = true
    -- seen at this time before: its page stands already
    · rw [if_pos hseen]
      refine .inl ⟨seen, s, rfl, h.skip ?_⟩
      intro content' mtime' executable' hstat'
      rw [hstat] at hstat'
      injection hstat' with hstat'
      injection hstat' with _ hmtime _
      rw [← hmtime]
      exact eq_of_beq hseen
    · rw [if_neg hseen]
      rcases run_compileWatched s settings path with ⟨told, hrun⟩ | ⟨e, he, hunreported, hrun⟩
      · refine .inl ⟨_, _, run_bind_of_ok s hrun _, Polling.tell ?_ told⟩
        exact h.compileFile hapart hready hwatched hV hstat hf (hpast path hV) (hforward path hV)
          hstart
      · refine .inr ⟨e, _, run_bind_of_error s hrun _, ?_⟩
        rintro ⟨hreadable, hsteady⟩
        have := h.compileFile_reported hapart hready hwatched hV hstat hreadable hsteady he
        exact absurd this (by simp [hunreported])
  · cases hnow : s.files.stat path with
    | ok entry =>
      cases entry with
      | file content mtime executable => exact absurd ⟨content, mtime, executable, hnow⟩ hfile
      | directory =>
        obtain ⟨told, hrun, hnext⟩ := h.directory hapart hready hwatched hV hnow
        exact .inl ⟨_, _, hrun, hnext⟩
    | error e =>
      rcases run_lookAt_of_error settings seen hnow with hrun | ⟨hrun, hrefusal⟩
      -- no file now, so there was none when the poll began: there is no page to stand
      · refine .inl ⟨seen, s, hrun, h.skip ?_⟩
        intro content mtime executable hstat
        exact absurd ⟨content, mtime, executable, (h.stat_iff hapart hready hwatched hV).mpr hstat⟩
          hfile
      · refine .inr ⟨_, s, hrun, ?_⟩
        rintro ⟨hreadable, -⟩
        have := Files.stat_refuses (hreadable.named path hwatched) hnow
        exact absurd this (by simp [hrefusal])

/-- **The files of a poll**, one after the other. -/
theorem foldlM_polling (paths : List Path)
    (hpaths : ∀ path ∈ paths, Watched settings start path ∧ V path)
    (h : Polling settings base V g past start done seen s) :
    (∃ seen' s', s.run (paths.foldlM (lookAt settings) seen) = (.ok seen', s')
        ∧ Polling settings base V g past start (paths.reverse ++ done) seen' s')
      ∨ ∃ e s', s.run (paths.foldlM (lookAt settings) seen) = (.error e, s')
        ∧ ¬ (Readable settings start ∧ Steady g) := by
  induction paths generalizing done seen s with
  | nil => exact .inl ⟨seen, s, rfl, h⟩
  | cons path rest ih =>
    obtain ⟨hwatched, hV⟩ := hpaths path (by simp)
    rw [List.foldlM_cons]
    rcases lookAt_polling hapart hready hf hstart hpast hforward h hwatched hV with
      ⟨seen', s', hrun, hnext⟩ | ⟨e, s', hrun, hnot⟩
    · rw [run_bind_of_ok s hrun]
      have := ih (fun q hq => hpaths q (by simp [hq])) hnext
      simpa using this
    · exact .inr ⟨e, s', run_bind_of_error s hrun _, hnot⟩

omit hapart hready hstart hpast in
/-- After a poll the page of every watched file stands at its target: what was
seen of the file is what it is. -/
theorem Polling.stands (h : Polling settings base V g past start done seen s) {path : Path}
    (hV : V path)
    (hdone : path ∈ done) {content : ByteArray} {mtime : Binary64} {executable : Bool}
    (hstat : start.stat path = .ok (.file content mtime executable)) {html : String}
    (hpage : pageOfFile g start path = .ok html) :
    ∃ t, s.files.version? (base.placeOf (targetFor settings path)) = some (html.toUTF8, t) := by
  obtain ⟨-, earlier, hearlier, content', executable', hstat', hstands⟩ :=
    h.settled path mtime (h.done path hdone content mtime executable hstat)
  -- two contents of one file cannot have the same time: one would be before itself
  have hsame : content' = content := by
    by_contra hne
    have hlater := hforward path hV earlier hearlier _ (Files.version?_of_stat hstat') _
      (Files.version?_of_stat hstat) hne
    exact absurd hlater (by simp [Time.before_self])
  subst hsame
  refine hstands html ?_
  rw [← hpage]
  exact pageOfFile_of_content hf hstat' hstat

end Poll

/-! ## §5. A whole poll. -/

/-- Every watched file that compiles has its page at its target: the text that a
new compiler with the same generator makes of the file. -/
def Fresh (settings : Settings) (g : Generator) (before after : Files) : Prop :=
  ∀ path, Watched settings before path → ∀ content mtime executable,
    before.stat path = .ok (.file content mtime executable) →
      after.stat path = .ok (.file content mtime executable)
        ∧ ∀ (text html : String) (new : Session), decoded? content = some text →
            new.compiler.generator = g → (new.run (compile text)).1 = .ok html →
              ∃ t, after.version? (after.placeOf
                ((watchTarget before settings path).getD (path.withSuffix outputSuffix)))
                  = some (html.toUTF8, t)

/-- The page of a file is what a new compiler makes of its text. -/
theorem pageOfFile_of_compile {g : Generator} (hf : g.formatter.IsFunction) {files : Files}
    {path : Path} {content : ByteArray} {mtime : Binary64} {executable : Bool}
    (hstat : files.stat path = .ok (.file content mtime executable)) {text html : String}
    (htext : decoded? content = some text) {new : Session} (hnew : new.compiler.generator = g)
    (hcompile : (new.run (compile text)).1 = .ok html) : pageOfFile g files path = .ok html := by
  obtain ⟨told, hrun⟩ := run_compile new text
  rw [hrun, hnew] at hcompile
  have hsource : sourceText files path = .ok text := by
    unfold sourceText
    rw [Files.read_of_stat hstat]
    simp only [htext]
  unfold pageOfFile
  rw [hsource]
  exact (pageFrom_of_isFunction hf files new.files text).trans hcompile

/-- When every file was looked at, every page is fresh. -/
theorem Polling.fresh {settings : Settings} {base : Files} {V : Path → Prop} {g : Generator}
    {past : List Files} {start : Files} {done : List Path} {seen : Seen} {s : Session}
    (hapart : Apart settings base V) (hready : Ready settings base V start)
    (hf : g.formatter.IsFunction)
    (hforward : ∀ path, V path → ∀ earlier ∈ past, Files.ForwardAt path earlier start)
    (h : Polling settings base V g past start done seen s)
    (hall : ∀ path, Watched settings start path → V path ∧ path ∈ done) :
    Fresh settings g start s.files := by
  intro path hpath content mtime executable hstat
  obtain ⟨hV, hdone⟩ := hall path hpath
  refine ⟨(h.stat_iff hapart hready hpath hV).mpr hstat, ?_⟩
  intro text html new htext hnew hcompile
  rw [watchTarget_getD (Files.Kept.refl (fun _ => False) (fun _ => False) start) hpath hstat,
    h.placeOf_target hready hV]
  exact h.stands hf hforward hV hdone hstat
    (pageOfFile_of_compile hf hstat htext hnew hcompile)

/-- A watch between two polls. -/
structure Resting (settings : Settings) (base : Files) (V : Path → Prop) (g : Generator)
    (past : List Files) (seen : Seen) (s : Session) : Prop where
  coherent : Coherent g past s
  settled : Settled settings base V g past seen s.files

section WholePoll

variable {settings : Settings} {base : Files} {V : Path → Prop} {g : Generator}
  {past : List Files} {seen : Seen} {s : Session}

/-- A poll begins with what the rest has left. -/
theorem Resting.polling (h : Resting settings base V g past seen s) :
    Polling settings base V g (past ++ [s.files]) s.files [] seen s := by
  refine ⟨h.coherent.forget (by simp) rfl h.coherent.clock (List.Subset.refl _),
    Files.Kept.refl _ _ _, ?_, by simp⟩
  intro path mtime hseen
  obtain ⟨hV, earlier, hearlier, hrest⟩ := h.settled path mtime hseen
  exact ⟨hV, earlier, by simp [hearlier], hrest⟩

/-- **A poll** that is not kept from going on leaves every page fresh. -/
theorem poll_fresh (hapart : Apart settings base V) (hf : g.formatter.IsFunction)
    (hready : Ready settings base V s.files)
    (hwatched : ∀ path, Watched settings s.files path → V path)
    (hpast : ∀ path, V path → ∀ earlier ∈ past, Aligned settings base earlier path)
    (hforward : ∀ path, V path → ∀ earlier ∈ past, Files.ForwardAt path earlier s.files)
    (h : Resting settings base V g past seen s) :
    (∃ seen' s', s.run (poll settings seen) = (.ok seen', s')
        ∧ Resting settings base V g (past ++ [s.files]) seen' s'
        ∧ Fresh settings g s.files s'.files)
      ∨ ∃ e s', s.run (poll settings seen) = (.error e, s')
        ∧ ¬ (Readable settings s.files ∧ Steady g) := by
  unfold poll
  rw [run_bind_of_ok s s.run_get]
  cases hpaths : watchedFiles s.files settings with
  | error e =>
    refine .inr ⟨.files e, s, rfl, ?_⟩
    rintro ⟨⟨⟨paths, hlisted⟩, -, -⟩, -⟩
    rw [hpaths] at hlisted
    exact absurd hlisted (by simp)
  | ok paths =>
    -- the store that the poll finds is now one of those that were there
    have hstart : s.files ∈ past ++ [s.files] := by simp
    have hpast' : ∀ path, V path → ∀ earlier ∈ past ++ [s.files],
        Aligned settings base earlier path := fun path hV =>
      List.forall_mem_append.mpr ⟨hpast path hV, by simpa using hready.aligned path hV⟩
    have hforward' : ∀ path, V path → ∀ earlier ∈ past ++ [s.files],
        Files.ForwardAt path earlier s.files := fun path hV =>
      List.forall_mem_append.mpr ⟨hforward path hV, by simpa using Files.forwardAt_refl _ _⟩
    have hlisted : ∀ path ∈ paths, Watched settings s.files path ∧ V path := fun path hpath =>
      ⟨⟨paths, hpaths, hpath⟩, hwatched path ⟨paths, hpaths, hpath⟩⟩
    rcases foldlM_polling hapart hready hf hstart hpast' hforward' paths hlisted h.polling with
      ⟨seen', s', hrun, hend⟩ | hfailed
    · refine .inl ⟨seen', s', hrun, ⟨hend.coherent, hend.settled⟩, ?_⟩
      refine hend.fresh hapart hready hf hforward' ?_
      rintro path ⟨paths', hpaths', hmem⟩
      obtain rfl : paths = paths' := by simpa [hpaths] using hpaths'
      exact ⟨(hlisted path hmem).2, by simpa using hmem⟩
    · exact .inr hfailed

end WholePoll

/-! ## §6. A whole watch. -/

/-- What happens while a watch rests: others change the files, and the clock goes
on. -/
structure Rest where
  change : Files → Files
  clock : Time → Time

/-- The session after a rest. -/
def Rest.apply (rest : Rest) (s : Session) : Session :=
  { s with files := rest.change s.files, now := rest.clock s.now, stderr := "" }

/-- One poll: the files before and after it, and what ended it if it failed. -/
structure Round where
  before : Files
  after : Files
  failure : Option Failure

/-- The polls of a watch with these rests between them. -/
def rounds (settings : Settings) : List Rest → Seen → Session → List Round
  | rests, seen, s =>
    match s.run (poll settings seen) with
    | (.error e, s') => [⟨s.files, s'.files, some e⟩]
    | (.ok seen', s') =>
      ⟨s.files, s'.files, none⟩ ::
        match rests with
        | [] => []
        | rest :: more => rounds settings more seen' (rest.apply s')

/-- A rest in which only these changes are made. -/
def Rest.ofBatch (batch : List Files.Change) : Rest where
  change := fun files => batch.foldl Files.apply files
  clock := id

/-- **The polls of a watch** are those of `watchOn`, and it ends as the last of
them does. -/
theorem watchOn_rounds (settings : Settings) (batches : List (List Files.Change)) (seen : Seen)
    (s : Session) :
    ∃ last ∈ (rounds settings (batches.map Rest.ofBatch) seen s).getLast?,
      (watchOn settings batches seen s).session.files = last.after
        ∧ (watchOn settings batches seen s).result
          = match last.failure with
            | none => .ok ()
            | some e => .error e := by
  induction batches generalizing seen s with
  | nil =>
    unfold watchOn rounds
    rcases s.run (poll settings seen) with ⟨result, s'⟩
    cases result with
    | error e => exact ⟨_, rfl, rfl, rfl⟩
    | ok seen' => exact ⟨_, rfl, rfl, rfl⟩
  | cons batch more ih =>
    unfold watchOn rounds
    rcases s.run (poll settings seen) with ⟨result, s'⟩
    cases result with
    | error e => exact ⟨_, rfl, rfl, rfl⟩
    | ok seen' =>
      obtain ⟨last, hlast, hfiles, hresult⟩ := ih seen' ((Rest.ofBatch batch).apply s')
      refine ⟨last, ?_, hfiles, hresult⟩
      simp only [List.map_cons]
      rw [List.getLast?_cons, Option.mem_def.mp hlast]
      rfl

theorem rounds_head (settings : Settings) (rests : List Rest) (seen : Seen) (s : Session) :
    ∃ round tail, rounds settings rests seen s = round :: tail ∧ round.before = s.files := by
  unfold rounds
  rcases s.run (poll settings seen) with ⟨result, s'⟩
  cases result with
  | error e => exact ⟨_, _, rfl, rfl⟩
  | ok seen' => exact ⟨_, _, rfl, rfl⟩

theorem rounds_of_error {settings : Settings} {rests : List Rest} {seen : Seen} {s s' : Session}
    {e : Failure} (h : s.run (poll settings seen) = (.error e, s')) :
    rounds settings rests seen s = [⟨s.files, s'.files, some e⟩] := by
  unfold rounds
  rw [h]

theorem rounds_of_ok {settings : Settings} {rests : List Rest} {seen seen' : Seen} {s s' : Session}
    (h : s.run (poll settings seen) = (.ok seen', s')) :
    rounds settings rests seen s
      = ⟨s.files, s'.files, none⟩ ::
        match rests with
        | [] => []
        | rest :: more => rounds settings more seen' (rest.apply s') := by
  conv => lhs; unfold rounds
  rw [h]

section Watch

variable {settings : Settings} {base : Files} {V : Path → Prop} {g : Generator}

/-- A poll that did not fail left every page fresh, and one fails only for files
that cannot be read or a generator that does not work. -/
def Round.Good (settings : Settings) (g : Generator) (round : Round) : Prop :=
  (round.failure = none → Fresh settings g round.before round.after)
    ∧ (Readable settings round.before → Steady g → round.failure = none)

/-- Between two polls nothing is unsettled as long as nobody else writes the
targets. -/
theorem Resting.apply {past : List Files} {seen : Seen} {s : Session} {rest : Rest}
    (h : Resting settings base V g past seen s) (hclock : (rest.clock s.now).Fits)
    (huntouched : ∀ path, V path →
      (rest.apply s).files.version? (base.placeOf (targetFor settings path))
        = s.files.version? (base.placeOf (targetFor settings path))) :
    Resting settings base V g past seen (rest.apply s) := by
  refine ⟨h.coherent.forget (List.Subset.refl _) rfl hclock (List.Subset.refl _), ?_⟩
  intro path mtime hseen
  obtain ⟨hV, earlier, hearlier, content, executable, hstat, hstands⟩ :=
    h.settled path mtime hseen
  refine ⟨hV, earlier, hearlier, content, executable, hstat, fun html hhtml => ?_⟩
  rw [huntouched path hV]
  exact hstands html hhtml

/-- The first poll of a watch, from what is assumed of all of them. -/
theorem poll_first (hapart : Apart settings base V) (hf : g.formatter.IsFunction)
    {rests : List Rest} {past : List Files} {seen : Seen} {s : Session}
    (hready : ∀ round ∈ rounds settings rests seen s, Ready settings base V round.before)
    (hwatched : ∀ round ∈ rounds settings rests seen s, ∀ path,
      Watched settings round.before path → V path)
    (hpast : ∀ path, V path → ∀ earlier ∈ past, Aligned settings base earlier path)
    (hforward : ∀ path, V path → (past ++ (rounds settings rests seen s).map Round.before).Pairwise
      (Files.ForwardAt path))
    (h : Resting settings base V g past seen s) :
    (∃ seen' s', s.run (poll settings seen) = (.ok seen', s')
        ∧ Resting settings base V g (past ++ [s.files]) seen' s'
        ∧ Round.Good settings g ⟨s.files, s'.files, none⟩)
      ∨ ∃ e s', s.run (poll settings seen) = (.error e, s')
        ∧ Round.Good settings g ⟨s.files, s'.files, some e⟩ := by
  obtain ⟨first, tail, hrounds, hbefore⟩ := rounds_head settings rests seen s
  rw [hrounds] at hready hwatched hforward
  have hnow := hready first (by simp)
  have hseen := hwatched first (by simp)
  -- the files of this poll are later than all that were compiled from before
  have hlater : ∀ path, V path → ∀ earlier ∈ past,
      Files.ForwardAt path earlier s.files := by
    intro path hV earlier hearlier
    rw [← hbefore]
    exact (List.pairwise_append.mp (hforward path hV)).2.2 earlier hearlier first.before (by simp)
  rw [hbefore] at hnow hseen
  rcases poll_fresh hapart hf hnow hseen hpast hlater h with
    ⟨seen', s', hrun, hresting, hfresh⟩ | ⟨e, s', hrun, hnot⟩
  · exact .inl ⟨seen', s', hrun, hresting, fun _ => hfresh, fun _ _ => rfl⟩
  · refine .inr ⟨e, s', hrun, by simp, ?_⟩
    intro hreadable hsteady
    exact absurd ⟨hreadable, hsteady⟩ hnot

/-- **Every poll of a watch** is good, if nobody else writes the targets and
changed files get later times. -/
theorem rounds_good (hapart : Apart settings base V) (hf : g.formatter.IsFunction)
    (rests : List Rest) (hclock : ∀ rest ∈ rests, ∀ t : Time, t.Fits → (rest.clock t).Fits)
    {past : List Files} {seen : Seen} {s : Session}
    (hready : ∀ round ∈ rounds settings rests seen s, Ready settings base V round.before)
    (hwatched : ∀ round ∈ rounds settings rests seen s, ∀ path,
      Watched settings round.before path → V path)
    (huntouched : (rounds settings rests seen s).IsChain fun round next => ∀ path, V path →
      next.before.version? (base.placeOf (targetFor settings path))
        = round.after.version? (base.placeOf (targetFor settings path)))
    (hpast : ∀ path, V path → ∀ earlier ∈ past, Aligned settings base earlier path)
    (hforward : ∀ path, V path → (past ++ (rounds settings rests seen s).map Round.before).Pairwise
      (Files.ForwardAt path))
    (h : Resting settings base V g past seen s) :
    ∀ round ∈ rounds settings rests seen s, round.Good settings g := by
  induction rests generalizing past seen s with
  | nil =>
    rcases poll_first hapart hf hready hwatched hpast hforward h with
      ⟨seen', s', hrun, -, hgood⟩ | ⟨e, s', hrun, hgood⟩
    · rw [rounds_of_ok hrun]
      simpa using hgood
    · rw [rounds_of_error hrun]
      simpa using hgood
  | cons rest more ih =>
    rcases poll_first hapart hf hready hwatched hpast hforward h with
      ⟨seen', s', hrun, hresting, hgood⟩ | ⟨e, s', hrun, hgood⟩
    · have hrounds : rounds settings (rest :: more) seen s
          = ⟨s.files, s'.files, none⟩ :: rounds settings more seen' (rest.apply s') :=
        rounds_of_ok hrun
      rw [hrounds] at hready hwatched huntouched hforward ⊢
      obtain ⟨next, tail, hnext, hbefore⟩ :=
        rounds_head settings more seen' (rest.apply s')
      -- the next poll finds the targets as this one has left them
      have hrested : Resting settings base V g (past ++ [s.files]) seen' (rest.apply s') := by
        rw [hnext, List.isChain_cons_cons] at huntouched
        refine hresting.apply (hclock rest (by simp) _ hresting.coherent.clock) ?_
        rw [← hbefore]
        exact huntouched.1
      have hlater := ih (fun rest' hrest' => hclock rest' (by simp [hrest']))
        (fun round hround => hready round (by simp [hround]))
        (fun round hround => hwatched round (by simp [hround])) huntouched.tail ?_ ?_ hrested
      · intro round hround
        rcases List.mem_cons.mp hround with rfl | hround
        · exact hgood
        · exact hlater round hround
      · intro path hV
        have hnow := (hready ⟨s.files, s'.files, none⟩ (by simp)).aligned path hV
        exact List.forall_mem_append.mpr ⟨hpast path hV, by simpa using hnow⟩
      · intro path hV
        have := hforward path hV
        rwa [List.map_cons, List.append_cons] at this
    · rw [rounds_of_error hrun]
      simpa using hgood

end Watch

/-- A path that is watched in one of these polls. -/
def EverWatched (settings : Settings) (polls : List Round) (path : Path) : Prop :=
  ∃ round ∈ polls, Watched settings round.before path

/-- The files of a watch can be reached and their targets written, the targets are
out of each other's way, and nobody else writes them while the watch rests. -/
structure Undisturbed (settings : Settings) (base : Files) (polls : List Round) : Prop where
  apart : Apart settings base (EverWatched settings polls)
  ready : ∀ round ∈ polls, Ready settings base (EverWatched settings polls) round.before
  untouched : polls.IsChain fun round next => ∀ path, EverWatched settings polls path →
    next.before.version? (base.placeOf (targetFor settings path))
      = round.after.version? (base.placeOf (targetFor settings path))

/-- **A watch leaves no stale page behind.**  Its compiler starts with an empty
cache.  If nobody else writes the targets, and every content of a watched file is
later than every other one that the file had at an earlier poll, then every poll
leaves at each target the page that a new compiler makes of the file; and no poll
fails as long as the files are text and the generator works.  The polls are those
of `watchOn`. -/
theorem watch_leaves_no_stale_page {settings : Settings} {start : Session} {rests : List Rest}
    (hempty : start.compiler.cache.entries = [])
    (hformatter : start.compiler.generator.formatter.IsFunction)
    (hclock : start.now.Fits)
    (hclocks : ∀ rest ∈ rests, ∀ t : Time, t.Fits → (rest.clock t).Fits)
    (hundisturbed : Undisturbed settings start.files (rounds settings rests [] start))
    (hrising : ∀ path, EverWatched settings (rounds settings rests [] start) path →
      (Files.versions ((rounds settings rests [] start).map Round.before) path).Pairwise Later) :
    (∀ round ∈ rounds settings rests [] start, round.Good settings start.compiler.generator)
      ∧ ∀ batches, rests = batches.map Rest.ofBatch →
          ∃ last ∈ (rounds settings rests [] start).getLast?,
            (watchOn settings batches [] start).session.files = last.after
              ∧ (watchOn settings batches [] start).result
                = match last.failure with
                  | none => .ok ()
                  | some e => .error e := by
  constructor
  · have hresting : Resting settings start.files
        (EverWatched settings (rounds settings rests [] start)) start.compiler.generator [] []
        start :=
      ⟨Coherent.of_empty hclock hempty, fun path mtime hseen => absurd hseen (by simp [Seen.get?])⟩
    refine rounds_good hundisturbed.apart hformatter rests hclocks hundisturbed.ready ?_
      hundisturbed.untouched (by simp) ?_ hresting
    · exact fun round hround path hpath => ⟨round, hround, hpath⟩
    · exact fun path hpath => Files.forwardAt_of_versions (hrising path hpath)
  · rintro batches rfl
    exact watchOn_rounds settings batches [] start

/-! ## §7. Two watches. -/

/-- The settings for watching one file. -/
def oneFile : Settings where
  input := some (inHere ["a.tml"])
  output := none
  options := { minify := true }
  formatCommand := Formatter.defaultCommand
  formatTimeout := .value (Binary64.ofRatio false 5 1)
  projectSource := inHere [projectSource]
  projectOutput := inHere [projectOutput]
  recursive := false
  watch := true
  init := false
  debug := false
  verbosity := 0

/-- A compiler that has compiled nothing yet, and the file. -/
def firstVersion : Session := minifying (holding [(["a.tml"], "p: one".toUTF8, 10)])

/-- A rest in which a file is written at a time, and some seconds pass. -/
def overwrite (names : List String) (text : String) (mtime : Int) : Rest where
  change := fun files => files.apply (.write (inHere names) text.toUTF8 (.whole mtime) false)
  clock := fun _ => .whole 30

theorem mem_of_everWatched {settings : Settings} {polls : List Round} {paths : List Path}
    (hlisted : ∀ round ∈ polls, watchedFiles round.before settings = .ok paths) {path : Path}
    (h : EverWatched settings polls path) : path ∈ paths := by
  obtain ⟨round, hround, paths', hpaths', hmem⟩ := h
  rw [hlisted round hround] at hpaths'
  exact Except.ok.inj hpaths' ▸ hmem

/-- **What has to be checked of a watch** so that nothing disturbs it, if the same paths are
watched in every poll. -/
theorem undisturbed_of_listed {settings : Settings} {base : Files} {polls : List Round}
    (paths : List Path)
    (hlisted : ∀ round ∈ polls, watchedFiles round.before settings = .ok paths)
    (hground : ∀ round ∈ polls, round.before.toGround = base.toGround)
    (hplaces : ∀ p ∈ paths, base.placeOf (base.resolve p) = base.placeOf p
      ∧ ∀ q ∈ paths, base.placeOf (targetFor settings p) ≠ base.placeOf q
        ∧ base.placeOf (targetFor settings p)
            ∉ Directory.waysTo base (targetFor settings q).parent
        ∧ (p ≠ q → base.placeOf (targetFor settings p) ≠ base.placeOf (targetFor settings q)))
    (hready : ∀ round ∈ polls, ∀ p ∈ paths,
      round.before.locate p = .ok (round.before.placeOf p)
        ∧ round.before.locate (round.before.resolve p) = .ok (round.before.placeOf p)
        ∧ round.before.Accepts (targetFor settings p))
    (huntouched : polls.IsChain fun round next => ∀ p ∈ paths,
      next.before.version? (base.placeOf (targetFor settings p))
        = round.after.version? (base.placeOf (targetFor settings p))) :
    Undisturbed settings base polls := by
  have hpath : ∀ path, EverWatched settings polls path → path ∈ paths :=
    fun path h => mem_of_everWatched hlisted h
  refine ⟨⟨?_, ?_, ?_, ?_⟩, ?_, ?_⟩
  · exact fun p hp => (hplaces p (hpath p hp)).1
  · exact fun p q hp hq => ((hplaces p (hpath p hp)).2 q (hpath q hq)).2.2
  · exact fun p q hp hq hway =>
      ((hplaces p (hpath p hp)).2 q (hpath q hq)).2.1 (Directory.mem_waysTo hway)
  · exact fun p q hp hq => ((hplaces p (hpath p hp)).2 q (hpath q hq)).1
  · intro round hround
    refine ⟨fun path _ => aligned_of_ground (hground round hround) path, ?_, ?_⟩
    · intro path hwatched _
      obtain ⟨hlocate, hresolve, -⟩ :=
        hready round hround path (hpath path ⟨round, hround, hwatched⟩)
      exact ⟨hlocate, hresolve⟩
    · intro path hwatched
      exact (hready round hround path (hpath path ⟨round, hround, hwatched⟩)).2.2
  · exact huntouched.imp fun round next hsame path hp => hsame path (hpath path hp)

/-- The settings for watching a directory, with its pages in another one. -/
def oneFolder : Settings :=
  { oneFile with input := some (inHere ["d"]), output := some (inHere ["out"]) }

/-- A compiler that has compiled nothing yet, and two files in the directory. -/
def twoFiles : Session :=
  minifying (holding [(["d", "a.tml"], "p: one".toUTF8, 10), (["d", "b.tml"], "p: two".toUTF8, 12)])

/-- A rest in which one of the files is written anew, and one in which the other is. -/
def bothRewritten : List Rest :=
  [overwrite ["d", "b.tml"] "p: three" 13, overwrite ["d", "a.tml"] "p[" 14]

theorem watch_leaves_no_stale_page_rewritten :
    Undisturbed oneFolder twoFiles.files (rounds oneFolder bothRewritten [] twoFiles)
      ∧ (rounds oneFolder bothRewritten [] twoFiles).length = 3
      ∧ ∀ round ∈ rounds oneFolder bothRewritten [] twoFiles,
          round.Good oneFolder minifier := by
  have hlisted : ∀ round ∈ rounds oneFolder bothRewritten [] twoFiles,
      watchedFiles round.before oneFolder = .ok [inHere ["d", "a.tml"], inHere ["d", "b.tml"]] := by
    decide +kernel
  have hundisturbed :
      Undisturbed oneFolder twoFiles.files (rounds oneFolder bothRewritten [] twoFiles) :=
    undisturbed_of_listed _ hlisted (by decide +kernel) (by decide +kernel) (by decide +kernel)
      (by decide +kernel)
  have hrising : ∀ path ∈ [inHere ["d", "a.tml"], inHere ["d", "b.tml"]],
      (Files.versions ((rounds oneFolder bothRewritten [] twoFiles).map Round.before)
        path).Pairwise Later := by
    decide +kernel
  have hclock : twoFiles.now.Fits := rfl
  refine ⟨hundisturbed, by decide +kernel,
    (watch_leaves_no_stale_page rfl minifier_isFunction hclock ?_ hundisturbed ?_).1⟩
  · intro rest hrest t _
    rcases List.mem_cons.mp hrest with rfl | hrest
    · rfl
    · rw [List.mem_singleton.mp hrest]
      rfl
  · exact fun path hpath => hrising path (mem_of_everWatched hlisted hpath)

/-- Whenever the content of a file changes, its time changes too, in either
direction. -/
def Noticed (a b : Files.Version) : Prop := a.1 ≠ b.1 → a.2 ≠ b.2

instance : DecidableRel Noticed := fun _ _ => inferInstanceAs (Decidable (_ → _))

/-- A rest in which the file is replaced by an older one. -/
def setBack : Rest := overwrite ["a.tml"] "p: two" 5

/-- **A file that is replaced by an older one is stale.**  The watch sees that its
time is another one and compiles it, but the cache sees that it is not later. -/
theorem older_file_is_stale :
    Undisturbed oneFile firstVersion.files (rounds oneFile [setBack] [] firstVersion)
      ∧ (Files.versions ((rounds oneFile [setBack] [] firstVersion).map Round.before)
          (inHere ["a.tml"])).IsChain Noticed
      ∧ (firstVersion.run (compile "p: two")).1 = .ok "<p>two</p>"
      ∧ ∃ round ∈ rounds oneFile [setBack] [] firstVersion, round.failure = none
          ∧ (round.after.version? ["w", "a.tml"]).map Prod.fst = some "p: two".toUTF8
          ∧ (round.after.version? ["w", "a.html"]).map Prod.fst = some "<p>one</p>".toUTF8 := by
  refine ⟨undisturbed_of_listed [inHere ["a.tml"]] (by decide +kernel) (by decide +kernel)
    (by decide +kernel) (by decide +kernel) (by decide +kernel), by decide +kernel,
    by decide +kernel, ?_⟩
  decide +kernel

end Offside.Watching
