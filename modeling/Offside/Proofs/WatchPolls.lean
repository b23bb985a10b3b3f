/-
  Offside.Proofs.WatchPolls
  ─────────────────────────
  **A POLL COMPILES EXACTLY THE FILES THAT HAVE CHANGED.**

  `polls` is a watch with a record of every look: the store as it was found, the
  path, and what was handed to the compiler because of it.  Without the record it
  is the watch itself (`map_toRound_polls`).  The memory of a watch is at every
  moment the time that was read last for each path (`Remembers`); a look keeps it
  so, whatever becomes of the file, and so do a poll and a whole run.  Hence what a
  poll hands over is settled by the times that were read up to then (`due`), and
  `watch_compiles_changed` says so of every poll.

  Pages are never written over watched files, so what a poll reads is what was there
  when it began (`readings_of_polled`), and what it leaves to be read is the same again
  (`readingsOf_after`).  A file that fails is thus of no consequence for any other.
-/
import Offside.Proofs.WatchCoverage

namespace Offside.Watching

open Compiler CommandLine Session Directory

/-! ## §1. A watch with a record. -/

/-- What a look can meet at a path: a file with its time, or a directory that has come in
its place. -/
inductive Sight where
  | folder
  | file (mtime : Binary64)
  deriving DecidableEq

/-- The time of a file that was met. -/
def Sight.time? : Sight → Option Binary64
  | .folder => none
  | .file mtime => some mtime

/-- What there is at a path, if there is anything. -/
def sightOf (files : Files) (path : Path) : Option Sight :=
  match files.stat path with
  | .error _ => none
  | .ok .directory => some .folder
  | .ok (.file _ mtime _) => some (.file mtime)

/-- A file that was handed to the compiler, where it was to go, and what became of
it. -/
structure Handed where
  path : Path
  target : Option Path
  result : Except Failure Path

/-- A look at a path: the store as it was found, and what was handed over. -/
structure Look where
  files : Files
  path : Path
  handed : List Handed := []

/-- A path and what was met there, if anything. -/
abbrev Reading := Path × Option Sight

def Look.reading (look : Look) : Reading := (look.path, sightOf look.files look.path)

/-- Hand a file to the compiler and tell what became of it. -/
def handOver (settings : Settings) (path : Path) (s : Session) :
    Handed × Except Failure Unit × Session :=
  let target := watchTarget s.files settings path
  let (result, s') := s.run (compileFile path target)
  let handed : Handed := ⟨path, target, result⟩
  match result with
  | .ok output => (handed, .ok (), s'.tell s!"Compiled {path} -> {output}\n")
  | .error e =>
    if e.isReported then (handed, .ok (), s'.tell (failureText (some path) e))
    else (handed, .error e, s')

/-- What is remembered of a path at which this was met. -/
def Sight.note (sight : Sight) (seen : Seen) (path : Path) : Seen :=
  match sight with
  | .folder => seen.forget path
  | .file mtime => seen.put path mtime

/-- Look at one file, and hand it over if it has changed. -/
def lookRecorded (settings : Settings) (seen : Seen) (path : Path) (s : Session) :
    Look × Except Failure Seen × Session :=
  let look : Look := { files := s.files, path }
  let change (sight : Sight) : Look × Except Failure Seen × Session :=
    let (handed, result, s') := handOver settings path s
    ({ look with handed := [handed] }, result.map fun _ => sight.note seen path, s')
  match s.files.stat path with
  | .error (.refused ..) => (look, .ok seen, s)
  | .error e => (look, .error (.files e), s)
  | .ok .directory => change .folder
  | .ok (.file _ mtime _) =>
    if seen.get? path == some mtime then (look, .ok seen, s) else change (.file mtime)

/-- Look at one file after the other, until one look ends the watch. -/
def looksRecorded (settings : Settings) : List Path → Seen → Session →
    List Look × Except Failure Seen × Session
  | [], seen, s => ([], .ok seen, s)
  | path :: rest, seen, s =>
    match lookRecorded settings seen path s with
    | (look, .error e, s') => ([look], .error e, s')
    | (look, .ok seen', s') =>
      let (looks, ended) := looksRecorded settings rest seen' s'
      (look :: looks, ended)

/-- Look at every watched file. -/
def pollRecorded (settings : Settings) (seen : Seen) (s : Session) :
    List Look × Except Failure Seen × Session :=
  match watchedFiles s.files settings with
  | .error e => ([], .error (.files e), s)
  | .ok paths => looksRecorded settings paths seen s

/-- One poll and the looks that were taken in it. -/
structure Poll extends Round where
  looks : List Look

/-- What was handed to the compiler in a poll. -/
def Poll.handed (poll : Poll) : List Handed := poll.looks.flatMap Look.handed

def Poll.readings (poll : Poll) : List Reading := poll.looks.map Look.reading

/-- The poll of a session. -/
def recorded (settings : Settings) (seen : Seen) (s : Session) : Poll :=
  let (looks, result, s') := pollRecorded settings seen s
  let failure :=
    match result with
    | .ok _ => none
    | .error e => some e
  { before := s.files, after := s'.files, failure, looks }

/-- The polls of a watch with these rests between them. -/
def polls (settings : Settings) : List Rest → Seen → Session → List Poll
  | rests, seen, s =>
    recorded settings seen s ::
      match pollRecorded settings seen s with
      | (_, .error _, _) => []
      | (_, .ok seen', s') =>
        match rests with
        | [] => []
        | rest :: more => polls settings more seen' (rest.apply s')

theorem polls_nil (settings : Settings) (seen : Seen) (s : Session) :
    polls settings [] seen s = [recorded settings seen s] := by
  unfold polls
  rcases pollRecorded settings seen s with ⟨looks, result, s'⟩
  cases result <;> rfl

/-! ## §2. Without the record. -/

/-- Recording what is handed over changes nothing. -/
theorem handOver_snd (settings : Settings) (path : Path) (s : Session) :
    (handOver settings path s).2 = s.run (compileWatched settings path) := by
  unfold handOver compileWatched
  rw [run_bind_of_ok s s.run_get]
  simp only
  rw [run_tryCatch, run_bind]
  rcases s.run (compileFile path (watchTarget s.files settings path)) with ⟨result, s'⟩
  cases result with
  | ok output => rfl
  | error e =>
    by_cases hreported : e.isReported = true
    · simp only [if_pos hreported]
      rfl
    · simp only [if_neg hreported]
      rfl

/-- Recording a look changes nothing. -/
theorem lookRecorded_snd (settings : Settings) (seen : Seen) (path : Path) (s : Session) :
    (lookRecorded settings seen path s).2 = s.run (lookAt settings seen path) := by
  unfold lookRecorded lookAt
  rw [run_bind_of_ok s s.run_get]
  cases hstat : s.files.stat path with
  | error e =>
    cases e with
    | refused cause text => rfl
    | nullInPath => rfl
    | tooDeep => rfl
  | ok entry =>
    cases entry with
    | directory =>
      simp only
      rw [run_bind, ← handOver_snd]
      rcases handOver settings path s with ⟨handed, result, s'⟩
      cases result <;> rfl
    | file content mtime executable =>
      simp only
      by_cases hseen : (seen.get? path == some mtime) = true
      · rw [if_pos hseen, if_pos hseen]
        rfl
      · rw [if_neg hseen, if_neg hseen, run_bind, ← handOver_snd]
        rcases handOver settings path s with ⟨handed, result, s'⟩
        cases result <;> rfl

/-- Recording several looks changes nothing. -/
theorem looksRecorded_snd (settings : Settings) (paths : List Path) (seen : Seen) (s : Session) :
    (looksRecorded settings paths seen s).2 = s.run (paths.foldlM (lookAt settings) seen) := by
  induction paths generalizing seen s with
  | nil => rfl
  | cons path rest ih =>
    unfold looksRecorded
    rw [List.foldlM_cons, run_bind, ← lookRecorded_snd]
    rcases lookRecorded settings seen path s with ⟨look, result, s'⟩
    cases result with
    | error e => rfl
    | ok seen' => exact ih seen' s'

/-- Recording a poll changes nothing. -/
theorem pollRecorded_snd (settings : Settings) (seen : Seen) (s : Session) :
    (pollRecorded settings seen s).2 = s.run (poll settings seen) := by
  unfold pollRecorded poll
  rw [run_bind_of_ok s s.run_get]
  cases watchedFiles s.files settings with
  | error e => rfl
  | ok paths => exact looksRecorded_snd settings paths seen s

/-- **The record changes nothing**: these are the polls of the watch. -/
theorem map_toRound_polls (settings : Settings) (rests : List Rest) (seen : Seen) (s : Session) :
    (polls settings rests seen s).map Poll.toRound = rounds settings rests seen s := by
  induction rests generalizing seen s with
  | nil =>
    rw [polls_nil]
    unfold rounds recorded
    rw [← pollRecorded_snd]
    rcases pollRecorded settings seen s with ⟨looks, result, s'⟩
    cases result <;> rfl
  | cons rest more ih =>
    unfold polls rounds recorded
    rw [← pollRecorded_snd]
    rcases pollRecorded settings seen s with ⟨looks, result, s'⟩
    cases result with
    | error e => rfl
    | ok seen' =>
      simp only [List.map_cons]
      rw [ih]

/-! ## §3. What is due. -/

/-- What was met last at a path, at a look at which something was there. -/
def lastRead (past : List Reading) (path : Path) : Option Sight :=
  past.reverse.findSome? fun r => if r.1 = path then r.2 else none

/-- Whether there is a file and its time is not the one that was read last, or a
directory has come in its place. -/
def isDue (past : List Reading) (r : Reading) : Bool :=
  match r.2 with
  | none => false
  | some .folder => true
  | some (.file mtime) => lastRead past r.1 != some (.file mtime)

/-- The paths that are due by what was read before and what is read now. -/
def due (past readings : List Reading) : List Path := (readings.filter (isDue past)).map Prod.fst

/-- The last reading of a path is the one that was made last, unless it saw nothing. -/
theorem lastRead_concat_self (past : List Reading) (path : Path) (sight : Option Sight) :
    lastRead (past ++ [(path, sight)]) path = sight.or (lastRead past path) := by
  unfold lastRead
  rw [List.reverse_concat, List.findSome?_cons]
  cases sight with
  | none => simp
  | some met => simp

/-- Readings of other paths do not matter. -/
theorem lastRead_concat_of_ne (past : List Reading) {path : Path} {r : Reading} (h : r.1 ≠ path) :
    lastRead (past ++ [r]) path = lastRead past path := by
  unfold lastRead
  rw [List.reverse_concat, List.findSome?_cons, if_neg h]

/-! ## §4. The memory of a watch. -/

/-- The memory holds for every path the time that was read last. -/
def Remembers (seen : Seen) (past : List Reading) : Prop :=
  ∀ path, seen.get? path = (lastRead past path).bind Sight.time?

theorem Sight.time?_eq_iff {last : Option Sight} {mtime : Binary64} :
    last.bind Sight.time? = some mtime ↔ last = some (.file mtime) := by
  cases last with
  | none => simp
  | some sight => cases sight <;> simp [Sight.time?]

/-- A look was right: the file was handed over once if it was due, and otherwise not
at all. -/
def Look.Right (settings : Settings) (past : List Reading) (look : Look) : Prop :=
  look.handed.map (fun x => (x.path, x.target))
    = if isDue past look.reading then [(look.path, watchTarget look.files settings look.path)]
      else []

/-- A watch begins with nothing read and nothing remembered. -/
theorem remembers_nil : Remembers [] [] := fun _ => rfl

namespace Remembers

variable {seen : Seen} {past : List Reading} (h : Remembers seen past)
include h

/-- Nothing is to be noted where nothing was met, or a file with the time that is
known. -/
theorem skip {path : Path} {sight : Option Sight}
    (hsight : sight = none ∨ sight = (seen.get? path).map .file) :
    Remembers seen (past ++ [(path, sight)]) := by
  intro other
  rw [h other]
  by_cases hother : path = other
  · subst hother
    rw [lastRead_concat_self]
    rcases hsight with rfl | hknown
    · rw [Option.none_or]
    · cases hseen : seen.get? path with
      | none => rw [hknown, hseen, Option.map_none, Option.none_or]
      | some mtime =>
        rw [hknown, hseen, Option.map_some, Option.some_or, ← h path, hseen]
        rfl
  · rw [lastRead_concat_of_ne past hother]

/-- What is noted is remembered. -/
theorem note (path : Path) (sight : Sight) :
    Remembers (sight.note seen path) (past ++ [(path, some sight)]) := by
  intro other
  by_cases hother : path = other
  · subst hother
    rw [lastRead_concat_self, Option.some_or]
    cases sight with
    | folder => exact Seen.get?_forget_self seen path
    | file mtime => exact Seen.get?_put_self seen path mtime
  · rw [lastRead_concat_of_ne past hother, ← h other]
    cases sight with
    | folder => exact Seen.get?_forget_of_ne seen (Ne.symm hother)
    | file mtime => exact Seen.get?_put_of_ne seen (Ne.symm hother) mtime

end Remembers

/-- **What a look can come to**: nothing, if nothing is met or a file with the time that
is known, or else what is met is handed over. -/
theorem lookRecorded_cases (settings : Settings) (seen : Seen) (path : Path) (s : Session) :
    (∃ result, lookRecorded settings seen path s = (⟨s.files, path, []⟩, result, s)
        ∧ (sightOf s.files path = none ∨ sightOf s.files path = (seen.get? path).map .file
            ∧ (seen.get? path).isSome)
        ∧ (result = .ok seen ∨ ∃ cause, result = .error (.files cause)
            ∧ s.files.stat path = .error cause ∧ cause.isRefusal = false))
      ∨ ∃ sight, sightOf s.files path = some sight
        ∧ (∀ mtime, sight = .file mtime → seen.get? path ≠ some mtime)
        ∧ lookRecorded settings seen path s
          = (⟨s.files, path, [(handOver settings path s).1]⟩,
              (handOver settings path s).2.1.map fun _ => sight.note seen path,
              (handOver settings path s).2.2) := by
  unfold lookRecorded sightOf
  cases s.files.stat path with
  | error e =>
    refine .inl ?_
    cases e with
    | refused cause text => exact ⟨_, rfl, .inl rfl, .inl rfl⟩
    | nullInPath => exact ⟨_, rfl, .inl rfl, .inr ⟨_, rfl, rfl, rfl⟩⟩
    | tooDeep => exact ⟨_, rfl, .inl rfl, .inr ⟨_, rfl, rfl, rfl⟩⟩
  | ok entry =>
    cases entry with
    | directory => exact .inr ⟨.folder, rfl, fun mtime hfile => absurd hfile (by simp), rfl⟩
    | file content mtime executable =>
      simp only
      by_cases hseen : seen.get? path = some mtime
      · rw [if_pos (by simp [hseen])]
        exact .inl ⟨_, rfl, .inr (by simp [hseen]), .inl rfl⟩
      · rw [if_neg (by simpa using hseen)]
        refine .inr ⟨.file mtime, rfl, fun time hfile => ?_, rfl⟩
        injection hfile with hfile
        exact hfile ▸ hseen

/-- **Handing a file over**: what is noted, what is left of the session, and how the
watch can end. -/
theorem handOver_spec (settings : Settings) (path : Path) (s : Session) :
    (handOver settings path s).1
        = ⟨path, watchTarget s.files settings path,
            (s.run (compileFile path (watchTarget s.files settings path))).1⟩
      ∧ (∃ told, (handOver settings path s).2.2
          = (s.run (compileFile path (watchTarget s.files settings path))).2.tell told)
      ∧ ∀ e, (handOver settings path s).2.1 = .error e →
          (handOver settings path s).1.result = .error e ∧ e.isReported = false := by
  unfold handOver
  rcases hrun : s.run (compileFile path (watchTarget s.files settings path)) with ⟨result, s'⟩
  simp only [hrun]
  cases result with
  | ok output => exact ⟨rfl, ⟨_, rfl⟩, fun e he => absurd he (by simp)⟩
  | error e =>
    by_cases hreported : e.isReported = true
    · simp only [if_pos hreported]
      exact ⟨trivial, ⟨_, rfl⟩, fun e' he => absurd he (by simp)⟩
    · simp only [if_neg hreported]
      refine ⟨trivial, ⟨"", by rw [tell_empty]⟩, ?_⟩
      intro e' he
      injection he with he
      exact ⟨by rw [he], by simpa [he] using hreported⟩

/-- **One look** is right, and the watch remembers what was read, whatever becomes of
the file. -/
theorem look_right {settings : Settings} {seen : Seen} {past : List Reading}
    (h : Remembers seen past) {path : Path} {s : Session} {look : Look}
    {ended : Except Failure Seen × Session}
    (hlook : lookRecorded settings seen path s = (look, ended)) :
    look.path = path ∧ look.Right settings past
      ∧ ∀ seen' s', ended = (.ok seen', s') → Remembers seen' (past ++ [look.reading]) := by
  rcases lookRecorded_cases settings seen path s with
    ⟨result, hcase, hsight, hresult⟩ | ⟨sight, hsome, hnew, hcase⟩
  · obtain ⟨rfl, rfl⟩ := Prod.mk.inj (hcase.symm.trans hlook)
    refine ⟨rfl, ?_, ?_⟩
    · unfold Look.Right
      rw [List.map_nil, if_neg]
      rcases hsight with hnone | ⟨hknown, hseen⟩
      · simp [Look.reading, isDue, hnone]
      · obtain ⟨mtime, hmtime⟩ := Option.isSome_iff_exists.mp hseen
        have hlast := Sight.time?_eq_iff.mp ((h path).symm.trans hmtime)
        simp [Look.reading, isDue, hknown, hmtime, hlast]
    · intro seen' s' hended
      rcases hresult with rfl | ⟨cause, rfl, -⟩
      · injection hended with hok _
        injection hok with hok
        exact hok ▸ h.skip (hsight.imp_right And.left)
      · exact absurd (congrArg Prod.fst hended) (by simp)
  · obtain ⟨rfl, rfl⟩ := Prod.mk.inj (hcase.symm.trans hlook)
    refine ⟨rfl, ?_, ?_⟩
    · have hdue : isDue past (path, some sight) = true := by
        cases sight with
        | folder => rfl
        | file mtime =>
          have hlast := hnew mtime rfl
          rw [h path, Ne, Sight.time?_eq_iff] at hlast
          simpa [isDue] using hlast
      unfold Look.Right Look.reading
      rw [hsome, if_pos hdue, (handOver_spec settings path s).1]
      rfl
    · intro seen' s' hended
      simp only [Look.reading, hsome]
      cases hresult : (handOver settings path s).2.1 with
      | error e =>
        rw [hresult] at hended
        exact absurd (congrArg Prod.fst hended) (by simp [Except.map])
      | ok u =>
        -- a failure that is reported comes here as well, and is noted like a page
        rw [hresult] at hended
        injection hended with hput _
        injection hput with hput
        exact hput ▸ h.note path sight

/-- A look at another path is of no consequence. -/
theorem Look.Right.of_concat {settings : Settings} {past : List Reading} {r : Reading} {look : Look}
    (h : look.Right settings (past ++ [r])) (hne : r.1 ≠ look.path) : look.Right settings past := by
  have hlast : lastRead (past ++ [r]) look.reading.1 = lastRead past look.reading.1 :=
    lastRead_concat_of_ne past hne
  unfold Look.Right isDue at h ⊢
  rwa [hlast] at h

/-- **The looks of a poll** are right by what was read before it, and the watch
remembers all of them. -/
theorem looks_right {settings : Settings} {paths : List Path} (hnodup : paths.Nodup) {seen : Seen}
    {s : Session} {past : List Reading} (h : Remembers seen past) {looks : List Look}
    {ended : Except Failure Seen × Session}
    (hlooks : looksRecorded settings paths seen s = (looks, ended)) :
    looks.map Look.path <+: paths
      ∧ (∀ look ∈ looks, look.Right settings past)
      ∧ ∀ seen' s', ended = (.ok seen', s') →
          looks.map Look.path = paths ∧ Remembers seen' (past ++ looks.map Look.reading) := by
  induction paths generalizing seen s past looks with
  | nil =>
    obtain ⟨rfl, rfl⟩ := Prod.mk.inj hlooks
    refine ⟨List.prefix_refl _, by simp, ?_⟩
    intro seen' s' hended
    injection hended with hok _
    injection hok with hok
    exact ⟨rfl, by simpa [← hok] using h⟩
  | cons path rest ih =>
    obtain ⟨hnew, hrest⟩ := List.nodup_cons.mp hnodup
    unfold looksRecorded at hlooks
    rcases hlook : lookRecorded settings seen path s with ⟨look, result, s₁⟩
    obtain ⟨rfl, hright, hmemory⟩ := look_right h hlook
    rw [hlook] at hlooks
    cases result with
    | error e =>
      obtain ⟨rfl, rfl⟩ := Prod.mk.inj hlooks
      exact ⟨by simp, by simpa using hright,
        fun seen' s' hended => absurd (congrArg Prod.fst hended) (by simp)⟩
    | ok seen₁ =>
      rcases hmore : looksRecorded settings rest seen₁ s₁ with ⟨tail, ended'⟩
      simp only [hmore] at hlooks
      obtain ⟨rfl, rfl⟩ := Prod.mk.inj hlooks
      obtain ⟨hfront, hall, hend⟩ := ih hrest (hmemory seen₁ s₁ rfl) hmore
      refine ⟨by simpa using hfront, ?_, ?_⟩
      · refine List.forall_mem_cons.mpr ⟨hright, fun other hother => ?_⟩
        -- the other look is at another path, since no path is looked at twice
        refine (hall other hother).of_concat ?_
        intro hsame
        have hpath : look.path = other.path := hsame
        exact hnew (hpath ▸ hfront.subset (List.mem_map_of_mem hother))
      · intro seen' s' hended
        obtain ⟨hpaths, hremembers⟩ := hend seen' s' hended
        refine ⟨by rw [List.map_cons, hpaths], ?_⟩
        rw [List.map_cons, List.append_cons]
        exact hremembers

/-! ## §5. One poll. -/

/-- **The list of a watch** is strictly sorted. -/
theorem watchedFiles_sorted {settings : Settings} {files : Files} {paths : List Path}
    (h : watchedFiles files settings = .ok paths) :
    paths.Pairwise fun a b => a.parts < b.parts := by
  rcases watchedFiles_cases h with ⟨b, hbatch, hlook⟩ | rfl | ⟨input, -, -, -, -, -, rfl⟩
  · exact Glob.glob_sorted (watchedFiles_of_batch hbatch hlook ▸ h)
  · exact List.Pairwise.nil
  · exact List.pairwise_singleton _ _

/-- A look hands its path over exactly if it is due. -/
theorem Look.Right.map_path {settings : Settings} {past : List Reading} {look : Look}
    (h : look.Right settings past) :
    look.handed.map Handed.path = if isDue past look.reading then [look.path] else [] := by
  have hpaths := congrArg (List.map Prod.fst) h
  rw [List.map_map, apply_ite (List.map Prod.fst)] at hpaths
  exact hpaths

/-- **What is handed over** is what is due. -/
theorem map_path_handed {settings : Settings} {past : List Reading} {looks : List Look}
    (h : ∀ look ∈ looks, look.Right settings past) :
    (looks.flatMap Look.handed).map Handed.path = due past (looks.map Look.reading) := by
  induction looks with
  | nil => rfl
  | cons look rest ih =>
    obtain ⟨hfirst, hrest⟩ := List.forall_mem_cons.mp h
    unfold due at ih ⊢
    rw [List.flatMap_cons, List.map_append, hfirst.map_path, ih hrest, List.map_cons]
    by_cases hdue : isDue past look.reading = true
    · rw [if_pos hdue, List.filter_cons_of_pos hdue]
      rfl
    · rw [if_neg hdue, List.filter_cons_of_neg hdue]
      rfl

/-- A path that was read once is due once or not at all. -/
theorem count_due {past readings : List Reading} (hnodup : (readings.map Prod.fst).Nodup)
    {r : Reading} (h : r ∈ readings) :
    (due past readings).count r.1 = if isDue past r then 1 else 0 := by
  have hsub : (due past readings).Sublist (readings.map Prod.fst) :=
    List.filter_sublist.map Prod.fst
  have hmem : r.1 ∈ due past readings ↔ isDue past r = true := by
    unfold due
    rw [List.mem_map]
    constructor
    · intro hin
      obtain ⟨r', hr, hsame⟩ := hin
      obtain ⟨hreading, hdue⟩ := List.mem_filter.mp hr
      -- the path was read only once, so this is the reading we know
      rwa [List.inj_on_of_nodup_map hnodup hreading h hsame] at hdue
    · intro hdue
      exact ⟨r, List.mem_filter.mpr ⟨h, hdue⟩, rfl⟩
  split
  next hdue => exact List.count_eq_one_of_mem (hnodup.sublist hsub) (hmem.mpr hdue)
  next hdue => exact List.count_eq_zero.mpr fun hin => hdue (hmem.mp hin)

/-- A look that ends the watch: the compiler failed in a way that is not reported, or
nothing can be said of the path at all. -/
def Look.Ends (look : Look) (e : Failure) : Prop :=
  (∃ x ∈ look.handed, x.result = .error e ∧ e.isReported = false)
    ∨ ∃ cause, e = .files cause ∧ look.files.stat look.path = .error cause
        ∧ cause.isRefusal = false

/-- **A failure that is reported** does not end the watch. -/
theorem look_ends {settings : Settings} {seen : Seen} {path : Path} {s s' : Session} {look : Look}
    {e : Failure} (h : lookRecorded settings seen path s = (look, .error e, s')) : look.Ends e := by
  rcases lookRecorded_cases settings seen path s with
    ⟨result, hcase, -, hresult⟩ | ⟨sight, -, -, hcase⟩
  · obtain ⟨rfl, hended⟩ := Prod.mk.inj (hcase.symm.trans h)
    obtain ⟨rfl, -⟩ := Prod.mk.inj hended
    rcases hresult with hok | ⟨cause, herror, hstat⟩
    · exact absurd hok (by simp)
    · injection herror with herror
      exact .inr ⟨cause, herror, hstat⟩
  · obtain ⟨rfl, hended⟩ := Prod.mk.inj (hcase.symm.trans h)
    obtain ⟨-, -, hends⟩ := handOver_spec settings path s
    cases hresult : (handOver settings path s).2.1 with
    | ok u =>
      rw [hresult] at hended
      exact absurd (congrArg Prod.fst hended) (by simp [Except.map])
    | error e' =>
      rw [hresult] at hended
      injection hended with herror _
      injection herror with herror
      subst herror
      exact .inl ⟨_, List.mem_singleton_self _, hends e' hresult⟩

/-- Looks that are broken off end with one that fails. -/
theorem looks_end {settings : Settings} {paths : List Path} {seen : Seen} {s s' : Session}
    {looks : List Look} {e : Failure}
    (h : looksRecorded settings paths seen s = (looks, .error e, s')) :
    ∃ look ∈ looks, look.Ends e := by
  induction paths generalizing seen s looks with
  | nil => exact absurd (congrArg (fun r => r.2.1) h) (by simp [looksRecorded])
  | cons path rest ih =>
    unfold looksRecorded at h
    rcases hlook : lookRecorded settings seen path s with ⟨look, result, s₁⟩
    rw [hlook] at h
    cases result with
    | error e' =>
      obtain ⟨rfl, hended⟩ := Prod.mk.inj h
      injection hended with herror _
      injection herror with herror
      exact ⟨look, by simp, look_ends (herror ▸ hlook)⟩
    | ok seen₁ =>
      rcases hmore : looksRecorded settings rest seen₁ s₁ with ⟨tail, ended⟩
      simp only [hmore] at h
      obtain ⟨rfl, rfl⟩ := Prod.mk.inj h
      obtain ⟨other, hother, hends⟩ := ih hmore
      exact ⟨other, List.mem_cons_of_mem _ hother, hends⟩

/-- A poll hands over exactly the files that have changed since what was read
before. -/
structure Poll.HandsOverChanged (settings : Settings) (past : List Reading) (poll : Poll) : Prop where
  /-- Only watched files are looked at, and all of them unless the watch ends. -/
  watched : ∀ look ∈ poll.looks, Watched settings poll.before look.path
  complete : poll.failure = none →
    watchedFiles poll.before settings = .ok (poll.looks.map Look.path)
  /-- A file that is there is handed over once if its time is not the one that was read
  last, and otherwise not at all. -/
  once : ∀ look ∈ poll.looks, ∀ mtime, sightOf look.files look.path = some (.file mtime) →
    (poll.handed.map Handed.path).count look.path
      = if lastRead past look.path = some (.file mtime) then 0 else 1
  /-- A directory that has come in the place of a file is handed over in its stead. -/
  instead : ∀ look ∈ poll.looks, sightOf look.files look.path = some .folder →
    (poll.handed.map Handed.path).count look.path = 1
  /-- Nothing else is handed over, and a file goes where the watch wants it. -/
  only : ∀ x ∈ poll.handed, ∃ look ∈ poll.looks, x.path = look.path
    ∧ (sightOf look.files look.path).isSome
    ∧ x.target = watchTarget look.files settings look.path
  /-- Files are handed over in the order of the parts of their paths. -/
  sorted : (poll.handed.map fun x => x.path.parts).Pairwise (· < ·)
  /-- The watch does not end because of a failure that is reported. -/
  ended : ∀ e, poll.failure = some e → (∃ look ∈ poll.looks, look.Ends e)
    ∨ ∃ cause, e = .files cause ∧ watchedFiles poll.before settings = .error cause

/-- A poll is as it should be if its looks are right. -/
theorem Poll.HandsOverChanged.of_looks {settings : Settings} {past : List Reading} {poll : Poll}
    (hright : ∀ look ∈ poll.looks, look.Right settings past) {paths : List Path}
    (hpaths : watchedFiles poll.before settings = .ok paths)
    (hsorted : paths.Pairwise fun a b => a.parts < b.parts)
    (hfront : poll.looks.map Look.path <+: paths)
    (hcomplete : poll.failure = none → poll.looks.map Look.path = paths)
    (hended : ∀ e, poll.failure = some e → ∃ look ∈ poll.looks, look.Ends e) :
    poll.HandsOverChanged settings past := by
  have hlooked := hsorted.sublist hfront.sublist
  have hhanded : poll.handed.map Handed.path = due past poll.readings := map_path_handed hright
  have hpath : poll.readings.map Prod.fst = poll.looks.map Look.path := by
    unfold Poll.readings
    rw [List.map_map]
    rfl
  have hcount : ∀ look ∈ poll.looks, (poll.handed.map Handed.path).count look.path
      = if isDue past look.reading then 1 else 0 := by
    intro look hlook
    rw [hhanded]
    exact count_due (hpath ▸ nodup_of_sorted hlooked)
      (List.mem_map_of_mem (f := Look.reading) hlook)
  -- no path is looked at twice, so what is handed over can be counted look by look
  refine ⟨?_, ?_, ?_, ?_, ?_, ?_, fun e he => .inl (hended e he)⟩
  · intro look hlook
    exact ⟨paths, hpaths, hfront.subset (List.mem_map_of_mem hlook)⟩
  · intro hfailure
    rw [hcomplete hfailure, hpaths]
  · intro look hlook mtime hread
    rw [hcount look hlook, Look.reading, hread]
    by_cases hlast : lastRead past look.path = some (.file mtime) <;> simp [isDue, hlast]
  · intro look hlook hread
    rw [hcount look hlook, Look.reading, hread]
    rfl
  · intro x hx
    obtain ⟨look, hlook, hin⟩ := List.mem_flatMap.mp hx
    have hpair : (x.path, x.target) ∈ look.handed.map fun x => (x.path, x.target) :=
      List.mem_map_of_mem hin
    rw [hright look hlook] at hpair
    split at hpair
    next hdue =>
      obtain ⟨hx, htarget⟩ := Prod.mk.inj (List.mem_singleton.mp hpair)
      refine ⟨look, hlook, hx, ?_, htarget⟩
      rw [Option.isSome_iff_ne_none]
      intro hnone
      exact absurd hdue (by simp [Look.reading, isDue, hnone])
    next => exact absurd hpair (by simp)
  · -- what is due is some of what was looked at, in the same order
    have hsub : (poll.handed.map Handed.path).Sublist (poll.looks.map Look.path) := by
      rw [hhanded, ← hpath]
      exact List.filter_sublist.map Prod.fst
    have hordered := hlooked.sublist hsub
    rw [List.pairwise_map] at hordered ⊢
    exact hordered

theorem recorded_looks (settings : Settings) (seen : Seen) (s : Session) :
    (recorded settings seen s).looks = (pollRecorded settings seen s).1 := rfl

/-- A poll has no failure exactly if it comes to its end. -/
theorem recorded_failure {settings : Settings} {seen : Seen} {s : Session} :
    (recorded settings seen s).failure = none ↔
      ∃ seen' s', (pollRecorded settings seen s).2 = (.ok seen', s') := by
  unfold recorded
  rcases pollRecorded settings seen s with ⟨looks, result, s'⟩
  cases result with
  | error e => simp
  | ok seen' => simp

theorem exists_error_of_recorded {settings : Settings} {seen : Seen} {s : Session} {e : Failure}
    (h : (recorded settings seen s).failure = some e) :
    ∃ s', (pollRecorded settings seen s).2 = (.error e, s') := by
  unfold recorded at h
  rcases hpoll : pollRecorded settings seen s with ⟨looks, result, s'⟩
  cases result with
  | error e' =>
    simp only [hpoll] at h
    exact ⟨s', by rw [Option.some.inj h]⟩
  | ok seen' =>
    simp only [hpoll] at h
    exact absurd h (by simp)

/-- **One poll** hands over exactly the files that have changed, and the watch
remembers what it has read. -/
theorem poll_right {settings : Settings} {seen : Seen} {s : Session} {past : List Reading}
    (h : Remembers seen past) :
    (recorded settings seen s).HandsOverChanged settings past
      ∧ (recorded settings seen s).handed.map Handed.path
          = due past (recorded settings seen s).readings
      ∧ ∀ seen' s', (pollRecorded settings seen s).2 = (.ok seen', s') →
          Remembers seen' (past ++ (recorded settings seen s).readings) := by
  cases hpaths : watchedFiles s.files settings with
  | error e =>
    -- no list can be made: the poll ends before its first look
    have hpoll : pollRecorded settings seen s = ([], .error (.files e), s) := by
      unfold pollRecorded
      rw [hpaths]
    have hrecorded : recorded settings seen s = ⟨⟨s.files, s.files, some (.files e)⟩, []⟩ := by
      unfold recorded
      rw [hpoll]
    rw [hpoll, hrecorded]
    refine ⟨⟨by simp, by simp, by simp, by simp, ?_, List.Pairwise.nil, ?_⟩, rfl, ?_⟩
    · intro x hx
      exact absurd hx (by simp [Poll.handed])
    · intro e' he
      exact .inr ⟨e, (Option.some.inj he).symm, hpaths⟩
    · intro seen' s' hok
      exact absurd (congrArg Prod.fst hok) (by simp)
  | ok paths =>
    have hsorted := watchedFiles_sorted hpaths
    have hpoll : looksRecorded settings paths seen s = pollRecorded settings seen s := by
      unfold pollRecorded
      rw [hpaths]
    obtain ⟨hfront, hright, hend⟩ := looks_right (nodup_of_sorted hsorted) h hpoll
    refine ⟨.of_looks hright hpaths hsorted hfront ?_ ?_, map_path_handed hright, ?_⟩
    · intro hfailure
      obtain ⟨seen', s', hok⟩ := recorded_failure.mp hfailure
      exact (hend seen' s' hok).1
    · intro e hfailure
      obtain ⟨s', herror⟩ := exists_error_of_recorded hfailure
      exact looks_end (hpoll.trans (Prod.ext rfl herror))
    · intro seen' s' hok
      exact (hend seen' s' hok).2

/-! ## §6. A whole watch. -/

/-- The polls that a watch has come through, from one state of it to another. -/
inductive Passed (settings : Settings) : Seen → Session → List Poll → Seen → Session → Prop
  | nil (seen : Seen) (s : Session) : Passed settings seen s [] seen s
  | cons {seen seen' seen₁ : Seen} {s s' s₁ : Session} {rest : Rest} {later : List Poll}
      (hpoll : (pollRecorded settings seen s).2 = (.ok seen', s'))
      (hlater : Passed settings seen' (rest.apply s') later seen₁ s₁) :
      Passed settings seen s (recorded settings seen s :: later) seen₁ s₁

/-- **Every poll of a watch** is the poll of a state that the polls before it have led
to. -/
theorem exists_passed {settings : Settings} {rests : List Rest} {seen : Seen} {s : Session}
    {earlier later : List Poll} {poll : Poll}
    (h : polls settings rests seen s = earlier ++ poll :: later) :
    ∃ seen₁ s₁, Passed settings seen s earlier seen₁ s₁ ∧ poll = recorded settings seen₁ s₁ := by
  induction earlier generalizing rests seen s with
  | nil =>
    unfold polls at h
    exact ⟨seen, s, .nil seen s, (List.cons.inj h).1.symm⟩
  | cons first tail ih =>
    unfold polls at h
    obtain ⟨rfl, htail⟩ := List.cons.inj h
    rcases hpoll : pollRecorded settings seen s with ⟨looks, result, s'⟩
    rw [hpoll] at htail
    cases result with
    | error e => exact absurd htail (by simp)
    | ok seen' =>
      -- there is a later poll, so there was a rest
      cases rests with
      | nil => exact absurd htail (by simp)
      | cons rest more =>
        obtain ⟨seen₁, s₁, hpassed, hlast⟩ := ih htail
        exact ⟨seen₁, s₁, .cons (by rw [hpoll]) hpassed, hlast⟩

namespace Passed

variable {settings : Settings} {seen seen₁ : Seen} {s s₁ : Session} {earlier : List Poll}

/-- **A watch remembers** what it has read, over any number of polls. -/
theorem remembers (h : Passed settings seen s earlier seen₁ s₁) {past : List Reading}
    (hstart : Remembers seen past) : Remembers seen₁ (past ++ earlier.flatMap Poll.readings) := by
  induction h generalizing past with
  | nil seen s => simpa using hstart
  | cons hpoll hlater ih =>
    have hnext := (poll_right hstart).2.2 _ _ hpoll
    rw [List.flatMap_cons, ← List.append_assoc]
    exact ih hnext

end Passed

/-! ## §7. What a poll reads. -/

/-- **A watched file of a directory** is read as it was when the poll began, whatever
pages were written since. -/
theorem sightOf_kept {made : Location → Prop} {a b : Files} (hkept : Files.Kept made PageSpot a b)
    {path : Path} {content : ByteArray} {mtime : Binary64} {executable : Bool}
    (hstat : a.stat path = .ok (.file content mtime executable))
    (hspot : ¬ PageSpot (a.placeOf path)) : sightOf b path = sightOf a path := by
  unfold sightOf
  rw [hstat, hkept.stat hspot hstat]

/-- A name that leads to something leads down. -/
theorem placeOf_child {fs : Files} (htree : IsTree fs) {folder : Path} {name : String}
    {entry : FileEntry} (hat : fs.at? (fs.placeOf folder ++ [name]) = some entry) :
    fs.placeOf (folder.child name) = fs.placeOf folder ++ [name] :=
  placeOf_within htree.unlinked folder (plain_of_at?_eq_some htree hat)

/-- A name that is listed leads to something. -/
theorem isSome_of_member {fs : Files} (htree : IsTree fs) {folder : Path}
    {names : List String} {name : String}
    (h : fs.globbed folder = .ok names) (hname : name ∈ names) :
    (fs.at? (fs.placeOf folder ++ [name])).isSome := by
  have hlist := Glob.list_of_globbed h (List.ne_nil_of_mem hname)
  obtain ⟨loc, hlocate, -, rfl⟩ := Glob.list_eq_ok hlist
  rw [← Files.locate_eq_ok hlocate]
  exact (mem_namesAt htree.unlinked).mp hname

section Kept

variable {made : Location → Prop} {a b : Files} {folder file : Path} {name : String} {deep : Bool}
  (hkept : Files.Kept made PageSpot a b)
include hkept

/-- A directory that may be listed before may be listed after, and the other way round. -/
theorem globbed_kept (hfolder : a.stat folder = .ok .directory) {names : List String}
    (hname : name ∈ names) :
    (a.globbed folder = .ok names → b.globbed folder = .ok (b.namesAt (a.placeOf folder)))
      ∧ (b.globbed folder = .ok names → a.globbed folder = .ok (a.namesAt (a.placeOf folder))) := by
  have hfolder' := stat_directory_of_kept hkept hfolder
  have hopen : ∀ {fs : Files}, fs.toGround = a.toGround → fs.stat folder = .ok .directory →
      fs.globbed folder = .ok names → a.sealed.contains (a.placeOf folder) = false := by
    intro fs hground hstat hlisted
    have hlist := Glob.list_of_globbed hlisted (List.ne_nil_of_mem hname)
    rw [list_of_stat hstat, Files.placeOf_eq_of_ground hground] at hlist
    split at hlist
    next => exact absurd hlist (by simp)
    next hsealed =>
      rw [hground] at hsealed
      simpa using hsealed
  constructor
  · intro hlisted
    refine Glob.globbed_of_list ?_
    rw [list_of_stat hfolder', Files.placeOf_eq_of_ground hkept.ground, hkept.ground,
      hopen rfl hfolder hlisted]
    rfl
  · intro hlisted
    refine Glob.globbed_of_list ?_
    rw [list_of_stat hfolder, hopen hkept.ground hfolder' hlisted]
    rfl

variable (htree : IsTree a) (htree' : IsTree b)
include htree htree'

/-- **A watched file that is listed before** is listed after. -/
theorem listed_after (h : Glob.Listed a deep isWatchedName folder file) :
    Glob.Listed b deep isWatchedName folder file := by
  induction h with
  | @inside folder names name listed member accepted =>
    have hinside : Glob.Listed a deep isWatchedName folder (folder.child name) :=
      .inside listed member accepted
    have hfolder := Glob.stat_of_listed hinside
    have hthere := isSome_of_member htree listed member
    obtain ⟨content, mtime, executable, hlook⟩ := accepted.2
    have hspot : ¬ PageSpot (a.placeOf (folder.child name)) := by
      obtain ⟨entry, hentry⟩ := Option.isSome_iff_exists.mp hthere
      rw [placeOf_child htree hentry]
      exact not_pageSpot accepted.1
    refine .inside ((globbed_kept hkept hfolder member).1 listed)
      ((mem_namesAt htree'.unlinked).mpr (isSome_of_kept hkept hthere))
      ⟨accepted.1, content, mtime, executable, ?_⟩
    exact Files.look_of_stat (hkept.stat hspot (Files.look_eq_ok_some hlook))
  | @further folder file names name listed member entered reached ih =>
    have hfolder := Glob.stat_of_listed (.further listed member entered reached)
    have hdown := (Glob.hasFolder_iff htree hfolder).mp entered.2
    refine .further ((globbed_kept hkept hfolder member).1 listed)
      ((mem_namesAt htree'.unlinked).mpr (by simp [hkept.directory hdown]))
      ⟨entered.1, (Glob.hasFolder_iff htree' (stat_directory_of_kept hkept hfolder)).mpr ?_⟩ ih
    rw [Files.placeOf_eq_of_ground hkept.ground]
    exact hkept.directory hdown

/-- **A watched file that is listed after** was listed before. -/
theorem listed_before (hfolder : a.stat folder = .ok .directory)
    (h : Glob.Listed b deep isWatchedName folder file) :
    Glob.Listed a deep isWatchedName folder file := by
  have hplace := Files.placeOf_eq_of_ground hkept.ground
  induction h with
  | @inside folder names name listed member accepted =>
    obtain ⟨content, mtime, executable, hlook⟩ := accepted.2
    have hstat := Files.look_eq_ok_some hlook
    have hat := (Files.stat_eq_ok hstat).2
    obtain ⟨entry, hentry⟩ :=
      Option.isSome_iff_exists.mp (isSome_of_member htree' listed member)
    rw [placeOf_child htree' hentry, hplace] at hat
    -- no page is written there, so the file was there before
    have hbefore := (hkept.file_iff (not_pageSpot accepted.1)).mp hat
    refine .inside ((globbed_kept hkept hfolder member).2 listed)
      ((mem_namesAt htree.unlinked).mpr (by simp [hbefore]))
      ⟨accepted.1, content, mtime, executable, ?_⟩
    exact Files.look_of_stat (stat_of_kept htree hfolder hkept hbefore hstat)
  | @further folder file names name listed member entered reached ih =>
    have hfolder' := stat_directory_of_kept hkept hfolder
    have hdown := (Glob.hasFolder_iff htree' hfolder').mp entered.2
    have hchild := Glob.stat_of_listed reached
    -- a file below it was there before, and so was the directory
    obtain ⟨below, name', content, mtime, executable, hthere, -, hname, -⟩ :=
      Glob.below_of_listed htree' reached (within_nil _).symm
        (by rw [List.append_nil]; exact (Files.stat_eq_ok hchild).2)
    rw [placeOf_child htree' hdown, hplace, List.nil_append, ← List.append_assoc] at hthere
    have hbefore := (hkept.file_iff (not_pageSpot hname)).mp hthere
    rw [List.append_assoc (a.placeOf folder ++ [name])] at hbefore
    have hdirectory := directory_of_below htree (by simp) hbefore
    have hstat := stat_of_kept htree hfolder hkept hdirectory hchild
    exact .further ((globbed_kept hkept hfolder member).2 listed)
      ((mem_namesAt htree.unlinked).mpr (by simp [hdirectory]))
      ⟨entered.1, (Glob.hasFolder_iff htree hfolder).mpr hdirectory⟩ (ih hstat)

end Kept

/-- What a poll finds when it begins. -/
def readingsOf (settings : Settings) (files : Files) : List Reading :=
  match watchedFiles files settings with
  | .error _ => []
  | .ok paths => paths.map fun path => (path, sightOf files path)

/-- What was there to be read when this poll began. -/
def Poll.found (settings : Settings) (poll : Poll) : List Reading :=
  readingsOf settings poll.before

/-- A look finds the store as it is, and leaves the generator as it is. -/
theorem lookRecorded_frame {settings : Settings} {seen : Seen} {path : Path} {s s' : Session}
    {look : Look} {result : Except Failure Seen}
    (h : lookRecorded settings seen path s = (look, result, s')) :
    look.files = s.files ∧ look.path = path
      ∧ s'.compiler.generator = s.compiler.generator := by
  rcases lookRecorded_cases settings seen path s with
    ⟨result', hcase, -, -⟩ | ⟨sight, -, -, hcase⟩
  · rw [hcase] at h
    obtain ⟨rfl, hended⟩ := Prod.mk.inj h
    obtain ⟨-, rfl⟩ := Prod.mk.inj hended
    exact ⟨rfl, rfl, rfl⟩
  · obtain ⟨-, ⟨told, hsession⟩, -⟩ := handOver_spec settings path s
    rw [hcase] at h
    obtain ⟨rfl, hended⟩ := Prod.mk.inj h
    obtain ⟨-, rfl⟩ := Prod.mk.inj hended
    refine ⟨rfl, rfl, ?_⟩
    rw [hsession]
    exact (run_compileFile_recalls s path _).generator

theorem pollRecorded_generator (settings : Settings) (seen : Seen) (s : Session) :
    (pollRecorded settings seen s).2.2.compiler.generator = s.compiler.generator := by
  have hlooks : ∀ (paths : List Path) (seen : Seen) (s : Session),
      (looksRecorded settings paths seen s).2.2.compiler.generator = s.compiler.generator := by
    intro paths
    induction paths with
    | nil => exact fun _ _ => rfl
    | cons path rest ih =>
      intro seen s
      unfold looksRecorded
      rcases hlook : lookRecorded settings seen path s with ⟨look, result, s'⟩
      obtain ⟨-, -, hgenerator⟩ := lookRecorded_frame hlook
      cases result with
      | error e => exact hgenerator
      | ok seen' => exact (ih seen' s').trans hgenerator
  unfold pollRecorded
  cases watchedFiles s.files settings with
  | error e => rfl
  | ok paths => exact hlooks paths seen s

section Stable

variable {settings : Settings} {b : Batch} {start : Files}
  (hbatch : batch? start settings = some b)
include hbatch

/-- A directory that is watched stays the one that is watched. -/
theorem batch?_kept {made written : Location → Prop} {fs : Files}
    (hkept : Files.Kept made written start fs) : batch? fs settings = some b := by
  unfold batch?
  rcases batch?_cases hbatch with ⟨hinput, rfl⟩ | ⟨input, hinput, hdirectory, rfl⟩
  · rw [hinput]
  · obtain ⟨hlocate, hat⟩ :=
      Files.stat_eq_ok (Files.look_eq_ok_some (Files.look_of_isDirectory hdirectory))
    rw [hinput]
    refine if_pos ?_
    unfold Files.isDirectory
    rw [Files.stat_of_locate (hkept.locate hlocate) (hkept.directory hat)]

/-- **Looking at a file of the batch** writes nothing but pages. -/
theorem lookRecorded_kept (hlinks : start.links = []) {s s' : Session}
    (hleaves : LeavesFiles s.compiler.generator)
    (hkept : Files.Kept (fun _ => True) PageSpot start s.files) {names : List String}
    (hne : names ≠ []) {seen : Seen} {look : Look} {result : Except Failure Seen}
    (h : lookRecorded settings seen (within b.source names) s = (look, result, s')) :
    Files.Kept (fun _ => True) PageSpot start s'.files := by
  rcases lookRecorded_cases settings seen (within b.source names) s with
    ⟨result', hcase, -, -⟩ | ⟨sight, -, -, hcase⟩
  · rw [hcase] at h
    obtain ⟨-, rfl⟩ := Prod.mk.inj (Prod.mk.inj h).2
    exact hkept
  · obtain ⟨-, ⟨told, hsession⟩, -⟩ := handOver_spec settings (within b.source names) s
    have hfile := compileFile_kept hleaves (within b.source names)
      (watchTarget s.files settings (within b.source names))
    rw [watchTarget_of_batch (batch?_kept hbatch hkept)] at hfile
    rw [hcase] at h
    obtain ⟨-, rfl⟩ := Prod.mk.inj (Prod.mk.inj h).2
    rw [hsession, tell_files]
    refine hkept.trans (hfile.mono (fun _ _ => trivial) ?_)
    rintro loc rfl
    refine pageSpot_target ?_ b.source b.output hne
    rw [hkept.ground]
    exact hlinks

/-- **The files of a batch** are all read as they were when the poll began, and the
poll leaves nothing new but pages. -/
theorem looks_kept (htree : IsTree start) (hat : start.at? (start.placeOf b.source) = some .directory)
    {paths : List Path}
    (hpaths : ∀ path ∈ paths, Glob.Listed start b.deep isWatchedName b.source path) {seen : Seen}
    {s : Session} (hleaves : LeavesFiles s.compiler.generator)
    (hkept : Files.Kept (fun _ => True) PageSpot start s.files) :
    (∀ look ∈ (looksRecorded settings paths seen s).1,
        sightOf look.files look.path = sightOf start look.path)
      ∧ Files.Kept (fun _ => True) PageSpot start
          (looksRecorded settings paths seen s).2.2.files := by
  induction paths generalizing seen s with
  | nil =>
    refine ⟨?_, hkept⟩
    intro look hlook
    exact absurd hlook (by simp [looksRecorded])
  | cons path rest ih =>
    obtain ⟨hfirst, hrest⟩ := List.forall_mem_cons.mp hpaths
    obtain ⟨⟨content, mtime, executable, hstat⟩, ⟨names, hne, hpath⟩, hspots⟩ :=
      exists_within_of_listed htree hat hfirst
    unfold looksRecorded
    rcases hlook : lookRecorded settings seen path s with ⟨look, result, s'⟩
    -- a page may be written at this look, but never over a path that is still to come
    have hkept' := lookRecorded_kept hbatch htree.unlinked hleaves hkept hne (hpath ▸ hlook)
    obtain ⟨hfiles, rfl, hgenerator⟩ := lookRecorded_frame hlook
    have hnow : sightOf look.files look.path = sightOf start look.path := by
      rw [hfiles]
      exact sightOf_kept hkept hstat (hspots _ (by simp))
    cases result with
    | error e => exact ⟨by simpa using hnow, hkept'⟩
    | ok seen' =>
      obtain ⟨hsights, hend⟩ := ih hrest (hgenerator ▸ hleaves) hkept'
      exact ⟨List.forall_mem_cons.mpr ⟨hnow, hsights⟩, hend⟩

/-- **What there is to be read** does not change because of pages, as long as the files
can be listed. -/
theorem readingsOf_kept (htree : IsTree start)
    (hlook : start.look b.source = .ok (some .directory)) {made : Location → Prop} {fs : Files}
    (htree' : IsTree fs) (hkept : Files.Kept made PageSpot start fs) {paths paths' : List Path}
    (hpaths : watchedFiles start settings = .ok paths)
    (hpaths' : watchedFiles fs settings = .ok paths') :
    readingsOf settings fs = readingsOf settings start := by
  have hsource := Files.look_eq_ok_some hlook
  have hlook' := Files.look_of_stat (stat_directory_of_kept hkept hsource)
  have hlist := watchedFiles_of_batch hbatch hlook ▸ hpaths
  have hlist' := watchedFiles_of_batch (batch?_kept hbatch hkept) hlook' ▸ hpaths'
  have hsame : paths' = paths := by
    refine eq_of_sorted (Glob.glob_sorted hlist') (Glob.glob_sorted hlist) fun file => ?_
    rw [Glob.mem_glob hlist', Glob.mem_glob hlist]
    exact ⟨listed_before hkept htree htree' hsource, listed_after hkept htree htree'⟩
  unfold readingsOf
  rw [hpaths, hpaths', hsame]
  refine List.map_congr_left fun path hpath => ?_
  obtain ⟨⟨content, mtime, executable, hstat⟩, -, hspots⟩ := exists_within_of_listed htree
    (Files.stat_eq_ok hsource).2 ((Glob.mem_glob hlist path).mp hpath)
  rw [sightOf_kept hkept hstat (hspots _ (by simp))]

end Stable

/-- A single look finds the store as the poll does. -/
theorem files_of_single_look {settings : Settings} {path : Path} {seen : Seen} {s : Session} :
    ∀ look ∈ (looksRecorded settings [path] seen s).1, look.files = s.files := by
  unfold looksRecorded
  rcases hlook : lookRecorded settings seen path s with ⟨look, result, s'⟩
  obtain ⟨hfiles, -, -⟩ := lookRecorded_frame hlook
  cases result with
  | error e => simpa using hfiles
  | ok seen' => simpa [looksRecorded] using hfiles

/-- **What a poll reads** is what was there when it began, if the formatter leaves the
files alone. -/
theorem readings_of_polled {settings : Settings} {seen : Seen} {s : Session} {past : List Reading}
    (htree : IsTree s.files) (hleaves : LeavesFiles s.compiler.generator)
    (hpoll : (recorded settings seen s).HandsOverChanged settings past)
    (hfailure : (recorded settings seen s).failure = none) :
    (recorded settings seen s).readings = readingsOf settings s.files := by
  have hpaths : watchedFiles s.files settings = .ok _ := hpoll.complete hfailure
  have hlooks : (recorded settings seen s).looks
      = (looksRecorded settings ((recorded settings seen s).looks.map Look.path) seen s).1 := by
    rw [recorded_looks]
    conv_lhs => unfold pollRecorded
    rw [hpaths]
    rfl
  -- only in a directory is anything written between two looks
  have hsights : ∀ look ∈ (recorded settings seen s).looks,
      sightOf look.files look.path = sightOf s.files look.path := by
    rcases watchedFiles_cases hpaths with
      ⟨b, hbatch, hlook⟩ | hnone | ⟨input, -, -, -, -, -, hone⟩
    · have hlist := watchedFiles_of_batch hbatch hlook ▸ hpaths
      rw [hlooks]
      exact (looks_kept hbatch htree (Files.stat_eq_ok (Files.look_eq_ok_some hlook)).2
        (fun path hpath => (Glob.mem_glob hlist path).mp hpath) hleaves
        (Files.Kept.refl _ _ _)).1
    · intro look hlook
      rw [List.map_eq_nil_iff.mp hnone] at hlook
      exact absurd hlook (by simp)
    · rw [hone] at hlooks
      rw [hlooks]
      intro look hlook
      rw [files_of_single_look look hlook]
  unfold readingsOf Poll.readings
  rw [hpaths]
  simp only [List.map_map]
  refine List.map_congr_left fun look hlook => ?_
  show (look.path, sightOf look.files look.path) = (look.path, sightOf s.files look.path)
  rw [hsights look hlook]

/-- **What a poll leaves to be read** is what it has found, if a directory is watched and
can still be listed: it makes no difference for the next poll what became of the files in
this one. -/
theorem readingsOf_after {settings : Settings} {seen : Seen} {s : Session} {b : Batch}
    (hbatch : batch? s.files settings = some b) (htree : IsTree s.files)
    (hleaves : LeavesFiles s.compiler.generator)
    (htree' : IsTree (recorded settings seen s).after) {paths' : List Path}
    (hpaths' : watchedFiles (recorded settings seen s).after settings = .ok paths') :
    readingsOf settings (recorded settings seen s).after = readingsOf settings s.files := by
  have hafter : (recorded settings seen s).after = (pollRecorded settings seen s).2.2.files := rfl
  cases hpaths : watchedFiles s.files settings with
  | error e =>
    rw [hafter]
    unfold pollRecorded
    rw [hpaths]
  | ok paths =>
    have hpoll : pollRecorded settings seen s = looksRecorded settings paths seen s := by
      unfold pollRecorded
      rw [hpaths]
    rcases watchedFiles_cases hpaths with ⟨b', hbatch', hlook⟩ | rfl | ⟨input, -, -, hnone, -⟩
    · have hlist := watchedFiles_of_batch hbatch' hlook ▸ hpaths
      have hkept : Files.Kept (fun _ => True) PageSpot s.files (recorded settings seen s).after := by
        rw [hafter, hpoll]
        exact (looks_kept hbatch' htree (Files.stat_eq_ok (Files.look_eq_ok_some hlook)).2
          (fun path hpath => (Glob.mem_glob hlist path).mp hpath) hleaves
          (Files.Kept.refl _ _ _)).2
      exact readingsOf_kept hbatch' htree hlook htree' hkept hpaths hpaths'
    · rw [hafter, hpoll]
      rfl
    · exact absurd hbatch (by simp [hnone])

/-- **The readings of polls that are over** are what was there when each of them
began. -/
theorem Passed.readings {settings : Settings} {seen seen₁ : Seen} {s s₁ : Session}
    {earlier : List Poll} (h : Passed settings seen s earlier seen₁ s₁)
    (htree : ∀ poll ∈ earlier, IsTree poll.before) (hleaves : LeavesFiles s.compiler.generator)
    {past : List Reading} (hstart : Remembers seen past) :
    earlier.map Poll.readings = earlier.map (Poll.found settings)
      ∧ LeavesFiles s₁.compiler.generator := by
  induction h generalizing past with
  | nil seen s => exact ⟨rfl, hleaves⟩
  | @cons seen seen' seen₁ s s' s₁ rest later hpoll hlater ih =>
    obtain ⟨hnow, hrest⟩ := List.forall_mem_cons.mp htree
    obtain ⟨hright, -, hmemory⟩ := poll_right hstart
    have hgenerator : s'.compiler.generator = s.compiler.generator := by
      rw [← pollRecorded_generator settings seen s, hpoll]
    obtain ⟨htail, hend⟩ := ih hrest (hgenerator ▸ hleaves) (hmemory _ _ hpoll)
    refine ⟨?_, hend⟩
    rw [List.map_cons, List.map_cons, htail, readings_of_polled hnow hleaves hright
      (recorded_failure.mpr ⟨_, _, hpoll⟩)]
    rfl

/-! ## §8. Which files are compiled. -/

section Watch

variable {settings : Settings} {start : Session} {rests : List Rest} {earlier later : List Poll}
  {poll : Poll} (htree : ∀ poll ∈ polls settings rests [] start, IsTree poll.before)
  (hsplit : polls settings rests [] start = earlier ++ poll :: later)
include htree hsplit

/-- A watch comes to each poll with what the polls before it have read. -/
theorem exists_remembers :
    ∃ seen s, Passed settings [] start earlier seen s ∧ poll = recorded settings seen s
      ∧ (∀ poll ∈ earlier, IsTree poll.before) ∧ IsTree s.files
      ∧ Remembers seen (earlier.flatMap Poll.readings) := by
  obtain ⟨seen, s, hpassed, rfl⟩ := exists_passed hsplit
  rw [hsplit] at htree
  obtain ⟨hbefore, hnow⟩ := List.forall_mem_append.mp htree
  exact ⟨seen, s, hpassed, rfl, hbefore, hnow _ List.mem_cons_self,
    hpassed.remembers remembers_nil⟩

/-- **What a poll hands over** is settled by what was there to be read when the polls
began. -/
theorem handed_of_found (hleaves : LeavesFiles start.compiler.generator)
    (hfailure : poll.failure = none) :
    poll.handed.map Handed.path
      = due (earlier.map (Poll.found settings)).flatten (poll.found settings) := by
  obtain ⟨seen, s, hpassed, rfl, hbefore, hnow, hremembers⟩ := exists_remembers htree hsplit
  obtain ⟨hreadings, hleaves'⟩ := hpassed.readings hbefore hleaves remembers_nil
  obtain ⟨hright, hdue, -⟩ := poll_right hremembers
  rw [hdue, readings_of_polled hnow hleaves' hright hfailure, List.flatMap_def, hreadings]
  rfl

end Watch

/-- Rests in which the file gets another text, is left alone, goes, comes back as it
was, and gets another text again. -/
def eventful (text : String) : List Rest :=
  [overwrite ["a.tml"] text 11, .ofBatch [], .ofBatch [.remove (inHere ["a.tml"])],
    overwrite ["a.tml"] text 11, overwrite ["a.tml"] "p: two" 12]

end Offside.Watching
