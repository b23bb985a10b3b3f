/-
  Offside.Proofs.Walks
  ────────────────────
  **WALKING DOWN A DIRECTORY, STEP BY STEP.**

  A walk lists a directory when it gets there, looks at each of its names and
  treats the sources.  Neither the listing nor the looking changes anything, so a
  walk is told by the files that it treats, each in the session that the one
  before has left behind (`Trail`).  It arrives after the last of them, or one of
  them breaks it off, or a directory cannot be listed and cuts it short.

  In a store that stands still, what a walk comes to can be said without it
  (`Found`), through links and all.
-/
import Offside.Proofs.Actions

namespace Offside.Walk

open Compiler Session

variable {β : Type}

/-! ## §1. One name and one directory. -/

section Run

variable (deep : Bool) (treat : β → Path → Path → Action β) (s : Session) (source : Path)
  (output : Option Path) (done : β)

theorem run_listNames (folder : Path) :
    s.run (Action.listNames folder) = ((s.files.list folder).mapError .files, s) := by
  unfold Action.listNames
  rw [run_bind_of_ok s s.run_get]
  cases s.files.list folder <;> rfl

/-- The target of a name in a directory, below the output or beside the file. -/
def targetAt (name : String) : Path :=
  ((output.map fun out => out.child name).getD (source.child name)).withSuffix outputSuffix

/-- **One name** is looked at, and what is there says what becomes of it. -/
theorem run_visit (down : Path → Option Path → β → Action β) (name : String) :
    s.run (visit deep treat down source output done name)
      = match s.files.look (source.child name) with
        | .error e => (.error (.files e), s)
        | .ok none => (.ok done, s)
        | .ok (some .directory) =>
          if deep then
            s.run (down (source.child name) (output.map fun out => out.child name) done)
          else (.ok done, s)
        | .ok (some (.file ..)) =>
          if isSourceName name then
            s.run (treat done (source.child name) (targetAt source output name))
          else (.ok done, s) := by
  unfold visit
  rw [run_bind, run_lookAt?]
  match s.files.look (source.child name) with
  | .error e => rfl
  | .ok none => rfl
  | .ok (some .directory) => cases deep <;> rfl
  | .ok (some (.file ..)) =>
    by_cases hname : isSourceName name = true
    · simp only [hname, if_true]
      rfl
    · simp only [hname]
      rfl

/-- **One directory** is listed, and its names are taken up one after the other. -/
theorem run_walkDown (levels : Nat) :
    s.run (walkDown deep treat (levels + 1) source output done)
      = match s.files.list source with
        | .error e => (.error (.files e), s)
        | .ok names =>
          s.run (names.foldlM (visit deep treat (walkDown deep treat levels) source output) done) := by
  conv => lhs; unfold walkDown
  rw [run_bind, run_listNames]
  cases s.files.list source <;> rfl

end Run

/-! A walk that keeps more is the same walk, with what is kept told by a function. -/

section Map

variable {γ : Type} {f : γ → β} {deep : Bool} {treat : β → Path → Path → Action β}
  {treat' : γ → Path → Path → Action γ}

theorem visit_map
    (htreat : ∀ done file target, treat (f done) file target = f <$> treat' done file target)
    {down : Path → Option Path → β → Action β} {down' : Path → Option Path → γ → Action γ}
    (hdown : ∀ source output done, down source output (f done) = f <$> down' source output done)
    (source : Path) (output : Option Path) (done : γ) (name : String) :
    visit deep treat down source output (f done) name
      = f <$> visit deep treat' down' source output done name := by
  unfold visit
  rw [map_bind]
  refine bind_congr fun found => ?_
  cases found with
  | none => exact (map_pure f done).symm
  | some entry =>
    cases entry with
    | directory =>
      cases deep with
      | true => exact hdown _ _ done
      | false => exact (map_pure f done).symm
    | file content mtime executable =>
      cases isSourceName name with
      | true => exact htreat done _ _
      | false => exact (map_pure f done).symm

theorem foldlM_map {α : Type} {act : β → α → Action β} {act' : γ → α → Action γ}
    (hact : ∀ done item, act (f done) item = f <$> act' done item) (items : List α) (done : γ) :
    items.foldlM act (f done) = f <$> items.foldlM act' done := by
  induction items generalizing done with
  | nil => exact (map_pure f done).symm
  | cons item rest ih =>
    rw [List.foldlM_cons, List.foldlM_cons, hact, bind_map_left, map_bind]
    exact bind_congr fun next => ih next

/-- **Keeping more changes nothing** about a walk. -/
theorem walkDown_map
    (htreat : ∀ done file target, treat (f done) file target = f <$> treat' done file target)
    (levels : Nat) (source : Path) (output : Option Path) (done : γ) :
    walkDown deep treat levels source output (f done)
      = f <$> walkDown deep treat' levels source output done := by
  induction levels generalizing source output done with
  | zero => rfl
  | succ levels ih =>
    unfold walkDown
    rw [map_bind]
    exact bind_congr fun names => foldlM_map (visit_map htreat ih source output) names done

end Map

/-! ## §2. The steps of a walk. -/

/-- A file that is treated: in which session, after what, and to which target. -/
structure Step (β : Type) where
  session : Session
  done : β
  file : Path
  target : Path

/-- The steps of one name after the other, as long as each of them succeeds. -/
def stepsAlong (act : β → String → Action β) (steps : Session → β → String → List (Step β)) :
    Session → β → List String → List (Step β)
  | _, _, [] => []
  | s, done, name :: rest =>
    steps s done name ++
      match s.run (act done name) with
      | (.ok done', s') => stepsAlong act steps s' done' rest
      | (.error _, _) => []

/-- The steps of one name in a directory. -/
def visitSteps (deep : Bool) (down : Session → Path → Option Path → β → List (Step β))
    (source : Path) (output : Option Path) (s : Session) (done : β) (name : String) :
    List (Step β) :=
  match s.files.look (source.child name) with
  | .ok (some .directory) =>
    if deep then down s (source.child name) (output.map fun out => out.child name) done else []
  | .ok (some (.file ..)) =>
    if isSourceName name then [⟨s, done, source.child name, targetAt source output name⟩] else []
  | _ => []

/-- The steps of a walk. -/
def walkSteps (deep : Bool) (treat : β → Path → Path → Action β) :
    Nat → Session → Path → Option Path → β → List (Step β)
  | 0, _, _, _, _ => []
  | levels + 1, s, source, output, done =>
    match s.files.list source with
    | .error _ => []
    | .ok names =>
      stepsAlong (visit deep treat (walkDown deep treat levels) source output)
        (visitSteps deep (walkSteps deep treat levels) source output) s done names

/-- **What steps come to**, one after the other. -/
inductive Trail (treat : β → Path → Path → Action β) :
    Session → β → List (Step β) → Except Failure β × Session → Prop where
  /-- There is no step left. -/
  | arrived (s : Session) (done : β) : Trail treat s done [] (.ok done, s)
  /-- A directory cannot be listed, or a name in it cannot be looked at. -/
  | cut (s : Session) (done : β) (e : FileError) : Trail treat s done [] (.error (.files e), s)
  /-- A file fails, and the walk with it. -/
  | broken {s s' : Session} {done : β} {file target : Path} {e : Failure}
      (h : s.run (treat done file target) = (.error e, s')) :
      Trail treat s done [⟨s, done, file, target⟩] (.error e, s')
  /-- A file is treated, and the walk goes on. -/
  | onward {s s' : Session} {done done' : β} {file target : Path} {steps : List (Step β)}
      {result : Except Failure β × Session} (h : s.run (treat done file target) = (.ok done', s'))
      (rest : Trail treat s' done' steps result) :
      Trail treat s done (⟨s, done, file, target⟩ :: steps) result

namespace Trail

variable {treat : β → Path → Path → Action β} {s : Session} {done : β} {steps : List (Step β)}
  {result : Except Failure β × Session}

/-- One step is a trail. -/
theorem single (s : Session) (done : β) (file target : Path) :
    Trail treat s done [⟨s, done, file, target⟩] (s.run (treat done file target)) := by
  rcases hrun : s.run (treat done file target) with ⟨_ | done', s'⟩
  · exact .broken hrun
  · exact .onward hrun (.arrived s' done')

/-- A trail that has arrived can be continued. -/
theorem append {s' : Session} {done' : β} {more : List (Step β)}
    (h : Trail treat s done steps (.ok done', s')) (hmore : Trail treat s' done' more result) :
    Trail treat s done (steps ++ more) result := by
  generalize hend : (Except.ok done', s') = finish at h
  induction h with
  | arrived s done =>
    injection hend with hdone hs
    injection hdone with hdone
    rw [← hdone, ← hs]
    exact hmore
  | cut s done e => exact absurd (congrArg Prod.fst hend) (by simp)
  | broken h => exact absurd (congrArg Prod.fst hend) (by simp)
  | onward h _ ih => exact .onward h (ih hend)

/-- What every file preserves holds at the end of a trail, wherever that is. -/
theorem invariant {P : Session → Prop} (h : Trail treat s done steps result)
    (hstep : ∀ s done file target, P s → P (s.run (treat done file target)).2) (hs : P s) :
    P result.2 := by
  induction h with
  | arrived s done => exact hs
  | cut s done e => exact hs
  | @broken s s' done file target e h =>
    have hafter := hstep s done file target hs
    rw [h] at hafter
    exact hafter
  | @onward s s' done done' file target steps result h _ ih =>
    have hafter := hstep s done file target hs
    rw [h] at hafter
    exact ih hafter

end Trail

/-! ## §3. The trail of a walk. -/

variable {treat : β → Path → Path → Action β}

/-- **The names of a directory**: what holds of each of them holds of all. -/
theorem trail_along {act : β → String → Action β} {steps : Session → β → String → List (Step β)}
    (h : ∀ s done name, Trail treat s done (steps s done name) (s.run (act done name)))
    (names : List String) (s : Session) (done : β) :
    Trail treat s done (stepsAlong act steps s done names) (s.run (names.foldlM act done)) := by
  induction names generalizing s done with
  | nil => exact .arrived s done
  | cons name rest ih =>
    have hname := h s done name
    rw [List.foldlM_cons, run_bind, stepsAlong]
    rcases hrun : s.run (act done name) with ⟨e | done', s'⟩
    · rw [hrun] at hname
      simp only [List.append_nil]
      exact hname
    · rw [hrun] at hname
      exact hname.append (ih s' done')

theorem trail_visit (deep : Bool) {down : Path → Option Path → β → Action β}
    {downSteps : Session → Path → Option Path → β → List (Step β)}
    (hdown : ∀ s source output done,
      Trail treat s done (downSteps s source output done) (s.run (down source output done)))
    (source : Path) (output : Option Path) (s : Session) (done : β) (name : String) :
    Trail treat s done (visitSteps deep downSteps source output s done name)
      (s.run (visit deep treat down source output done name)) := by
  rw [run_visit]
  unfold visitSteps
  match s.files.look (source.child name) with
  | .error e => exact .cut s done e
  | .ok none => exact .arrived s done
  | .ok (some .directory) =>
    by_cases hdeep : deep = true
    · simp only [if_pos hdeep]
      exact hdown s _ _ done
    · simp only [if_neg hdeep]
      exact .arrived s done
  | .ok (some (.file ..)) =>
    by_cases hname : isSourceName name = true
    · simp only [if_pos hname]
      exact .single s done _ _
    · simp only [if_neg hname]
      exact .arrived s done

/-- **A walk follows its trail.** -/
theorem trail_walkDown (deep : Bool) (levels : Nat) (s : Session) (source : Path)
    (output : Option Path) (done : β) :
    Trail treat s done (walkSteps deep treat levels s source output done)
      (s.run (walkDown deep treat levels source output done)) := by
  induction levels generalizing s source output done with
  | zero => exact .cut s done .tooDeep
  | succ levels ih =>
    rw [run_walkDown, walkSteps]
    cases s.files.list source with
    | error e => exact .cut s done e
    | ok names =>
      exact trail_along
        (fun s done name => trail_visit deep (fun s source output done => ih s source output done)
          source output s done name)
        names s done

/-- What every file preserves is preserved by a walk, however it ends. -/
theorem walkDown_preserves {P : Session → Prop} (deep : Bool) (levels : Nat) (s : Session)
    (source : Path) (output : Option Path) (done : β)
    (hstep : ∀ s done file target, P s → P (s.run (treat done file target)).2) (hs : P s) :
    P (s.run (walkDown deep treat levels source output done)).2 :=
  (trail_walkDown deep levels s source output done).invariant hstep hs

/-! ## §4. What a walk comes to in a store that stands still. -/

/-- **A file below a directory**: its name is accepted where it stands, and every
directory on the way to it is listed and entered. -/
inductive Reached (lists : Path → Except FileError (List String))
    (enters accepts : Path → String → Prop) :
    Path → Path → Prop
  | inside {source : Path} {names : List String} {name : String} (listed : lists source = .ok names)
      (member : name ∈ names) (accepted : accepts source name) :
      Reached lists enters accepts source (source.child name)
  | further {source file : Path} {names : List String} {name : String}
      (listed : lists source = .ok names) (member : name ∈ names) (entered : enters source name)
      (reached : Reached lists enters accepts (source.child name) file) :
      Reached lists enters accepts source file

section Reached

variable {lists lists' : Path → Except FileError (List String)}
  {enters enters' accepts accepts' : Path → String → Prop} {source file : Path}

/-- Once a directory is listed, a file below it is one of its names or is reached through
one of them. -/
theorem reached_iff {names : List String} (hlisted : lists source = .ok names) :
    Reached lists enters accepts source file ↔
      ∃ name ∈ names, (accepts source name ∧ file = source.child name)
        ∨ (enters source name ∧ Reached lists enters accepts (source.child name) file) := by
  constructor
  · intro h
    cases h with
    | @inside _ names' name listed member accepted =>
      rw [hlisted] at listed
      injection listed with hnames
      exact ⟨name, hnames ▸ member, .inl ⟨accepted, rfl⟩⟩
    | @further _ _ names' name listed member entered reached =>
      rw [hlisted] at listed
      injection listed with hnames
      exact ⟨name, hnames ▸ member, .inr ⟨entered, reached⟩⟩
  · intro h
    obtain ⟨name, member, ⟨accepted, rfl⟩ | ⟨entered, reached⟩⟩ := h
    · exact .inside hlisted member accepted
    · exact .further hlisted member entered reached

/-- Who lists, enters and accepts more reaches more. -/
theorem Reached.mono (h : Reached lists enters accepts source file)
    (hlists : ∀ p names, lists p = .ok names → names ≠ [] → lists' p = .ok names)
    (henters : ∀ p name, enters p name → enters' p name)
    (haccepts : ∀ p name, accepts p name → accepts' p name) :
    Reached lists' enters' accepts' source file := by
  induction h with
  | inside listed member accepted =>
    exact .inside (hlists _ _ listed (List.ne_nil_of_mem member)) member (haccepts _ _ accepted)
  | further listed member entered _ ih =>
    exact .further (hlists _ _ listed (List.ne_nil_of_mem member)) member (henters _ _ entered) ih

end Reached

/-- There is a file of this name in a directory. -/
def FileIn (fs : Files) (source : Path) (name : String) : Prop :=
  ∃ content mtime executable,
    fs.look (source.child name) = .ok (some (.file content mtime executable))

/-- **A source that a walk comes to.**  A name that leads to a directory through a link is
gone down into like any other. -/
def Found (fs : Files) (deep : Bool) : Path → Path → Prop :=
  Reached fs.list
    (fun source name => deep = true ∧ fs.look (source.child name) = .ok (some .directory))
    (fun source name => isSourceName name = true ∧ FileIn fs source name)

/-- A source that one name in a directory is or leads to. -/
def FoundAt (fs : Files) (deep : Bool) (source : Path) (name : String) (file : Path) : Prop :=
  match fs.look (source.child name) with
  | .ok (some (.file ..)) => isSourceName name = true ∧ file = source.child name
  | .ok (some .directory) => deep = true ∧ Found fs deep (source.child name) file
  | _ => False

theorem found_iff {fs : Files} {deep : Bool} {source file : Path} {names : List String}
    (hlisted : fs.list source = .ok names) :
    Found fs deep source file ↔ ∃ name ∈ names, FoundAt fs deep source name file := by
  unfold Found
  rw [reached_iff hlisted]
  refine exists_congr fun name => and_congr_right fun _ => ?_
  unfold FoundAt
  split
  next there => simp [there, FileIn]
  next folder =>
    constructor
    · intro h
      obtain ⟨⟨-, content, mtime, executable, there⟩, -⟩ | ⟨⟨hdeep, -⟩, hfound⟩ := h
      · exact absurd (folder.symm.trans there) (by simp)
      · exact ⟨hdeep, hfound⟩
    · exact fun h => .inr ⟨⟨h.1, folder⟩, h.2⟩
  next hother hother' =>
    constructor
    · intro h
      obtain ⟨⟨-, content, mtime, executable, there⟩, -⟩ | ⟨⟨-, folder⟩, -⟩ := h
      · exact hother content mtime executable there
      · exact hother' folder
    · exact False.elim

/-- In a directory that is not gone down into, every source that is found has one of its
names. -/
theorem forall_found_of_names {fs : Files} {source : Path} (names : List String)
    {P : Path → Prop} (hlisted : fs.list source = .ok names)
    (h : ∀ name ∈ names, P (source.child name)) : ∀ file, Found fs false source file → P file := by
  intro file hfound
  obtain ⟨name, hname, hat⟩ := (found_iff hlisted).mp hfound
  unfold FoundAt at hat
  split at hat
  next => exact hat.2 ▸ h name hname
  next => exact absurd hat.1 (by simp)
  next => exact hat.elim

/-- Whether a walk passes one name in a directory: it can be looked at, and the directory
that it leads to can be walked down if it is gone down into. -/
def passable (fs : Files) (deep : Bool) (below : Path → Bool) (source : Path) (name : String) :
    Bool :=
  match fs.look (source.child name) with
  | .error _ => false
  | .ok (some .directory) => !deep || below (source.child name)
  | .ok _ => true

/-- Whether a directory can be walked down, a number of levels: it can be listed, and
each of its names passed. -/
def walkable (fs : Files) (deep : Bool) : Nat → Path → Bool
  | 0, _ => false
  | levels + 1, source =>
    match fs.list source with
    | .error _ => false
    | .ok names => names.all (passable fs deep (walkable fs deep levels) source)

end Offside.Walk
