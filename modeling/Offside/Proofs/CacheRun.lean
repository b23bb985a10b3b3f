/-
  Offside.Proofs.CacheRun
  ───────────────────────
  A cache in use.

  A cache is used in a `Run`: one operation after the other, each at a time of
  its own, with the answers kept as the past of the run.  What one operation can
  do to the entries is said once, by `Change`; `apply_change` says that it does
  nothing else, and what holds of every run follows from it by `play_induction`.
-/
import Mathlib
import Offside.Proofs.CompileFile

namespace Offside.Cache

variable {κ α : Type} [BEq κ]

/-! ## §1. Operations. -/

/-- What can be done with a cache. -/
inductive Op (κ α : Type) where
  | get (key : κ)
  | set (key : κ) (value : α) (mtime : Option Time)
  | delete (key : κ)
  | isValid (key : κ) (mtime : Time)
  | contains (key : κ)
  | cleanup
  | clear
  deriving DecidableEq

/-- What is answered. -/
inductive Answer (α : Type) where
  /-- The value that was looked up, if there is one. -/
  | found (value : Option α)
  /-- Whether there is, or was, an entry. -/
  | held (yes : Bool)
  /-- How many entries were dropped. -/
  | dropped (count : Nat)
  | done
  /-- The age of an entry cannot be told, and nothing is done. -/
  | undated
  deriving DecidableEq

/-- Whether an operation asks for the age of an entry that has none it can
tell. -/
def Op.isUndated (c : Cache κ α) (now : Time) : Op κ α → Bool
  | .get key | .isValid key _ | .contains key => c.isUndated now key
  | .cleanup => c.hasUndated now
  | .set .. | .delete _ | .clear => false

/-- The answer to an operation at a time, and the cache after it. -/
def Op.perform (c : Cache κ α) (now : Time) : Op κ α → Answer α × Cache κ α
  | .get key => (.found (c.get now key).1, (c.get now key).2)
  | .set key value mtime => (.done, c.set now key value mtime)
  | .delete key => (.held (c.delete key).1, (c.delete key).2)
  | .isValid key mtime => (.held (c.isValid now key mtime).1, (c.isValid now key mtime).2)
  | .contains key => (.held (c.contains now key).1, (c.contains now key).2)
  | .cleanup => (.dropped (c.cleanup now).1, (c.cleanup now).2)
  | .clear => (.done, c.clear)

/-- The same with the operations that fail, which leave the cache alone. -/
def Op.apply (c : Cache κ α) (now : Time) (op : Op κ α) : Answer α × Cache κ α :=
  if op.isUndated c now then (.undated, c) else op.perform c now

/-- The key that an operation with this answer touches: one that is stored, or
looked up and found. -/
def Op.touched? : Op κ α → Answer α → Option κ
  | .set key _ _, _ => some key
  | .get key, .found (some _) => some key
  | _, _ => none

/-- An operation after which an entry of a key is no longer to be found, however
old it is: the key is stored again or deleted, everything is dropped, or what
the entry was made from is known to have changed. -/
def Op.Ends (key : κ) (entry : Entry α) : Op κ α → Prop
  | .set k _ _ => k = key
  | .delete k => k = key
  | .isValid k mtime => k = key ∧ outdated mtime entry = true
  | .clear => True
  | .get _ | .contains _ | .cleanup => False

/-! ## §2. What one operation can do. -/

/-- What an operation can do to the entries of a cache, with its answer. -/
inductive Change (c : Cache κ α) (now : Time) :
    Op κ α → Answer α → List (κ × Entry α) → Prop
  /-- Nothing, as the age of an entry cannot be told. -/
  | undated {op : Op κ α} {x : κ × Entry α} (hquiet : op.touched? (.undated : Answer α) = none)
      (hx : x ∈ c.entries) (hage : ageless now x.2 = true) :
      Change c now op .undated c.entries
  /-- Nothing, and nothing had to be done. -/
  | unchanged {op : Op κ α} {answer : Answer α} (hquiet : op.touched? answer = none)
      (hkeeps : ∀ key e, c.find? key = some e → ¬ op.Ends key e) :
      Change c now op answer c.entries
  /-- The entry of a key is dropped, if there is one. -/
  | erased {op : Op κ α} {answer : Answer α} {key : κ} (hquiet : op.touched? answer = none)
      (honly : ∀ k e, op.Ends k e → k = key)
      (hwhy : ∀ e, c.find? key = some e → c.expired now e = true ∨ op.Ends key e) :
      Change c now op answer (c.erase key).entries
  /-- The entry of a key is found. -/
  | promoted {key : κ} {e : Entry α} (hfind : c.find? key = some e)
      (hage : c.expired now e = false) :
      Change c now (.get key) (.found (some e.value)) (c.promote key e).entries
  | stored {key : κ} {value : α} {mtime : Option Time} :
      Change c now (.set key value mtime) .done (c.set now key value mtime).entries
  /-- The entries that are too old are dropped. -/
  | cleaned {count : Nat} :
      Change c now .cleanup (.dropped count) (c.entries.filter fun x => !c.expired now x.2)
  | cleared : Change c now .clear .done []

section Apply

variable {c : Cache κ α} {now : Time} {key : κ}

/-- A key whose entry has an unknown age does have an entry. -/
theorem exists_of_isUndated (h : c.isUndated now key = true) :
    ∃ x ∈ c.entries, ageless now x.2 = true := by
  unfold isUndated find? at h
  cases hfind : c.entries.find? (fun e => e.1 == key) with
  | none => rw [hfind] at h; exact nomatch h
  | some x =>
    rw [hfind] at h
    exact ⟨x, List.mem_of_find?_eq_some hfind, h⟩

/-- Only operations fail that touch nothing, and only on such an entry. -/
theorem Op.isUndated_cases {op : Op κ α} (h : op.isUndated c now = true) :
    op.touched? (.undated : Answer α) = none ∧ ∃ x ∈ c.entries, ageless now x.2 = true := by
  cases op with
  | get key => exact ⟨rfl, exists_of_isUndated h⟩
  | isValid key mtime => exact ⟨rfl, exists_of_isUndated h⟩
  | contains key => exact ⟨rfl, exists_of_isUndated h⟩
  | cleanup => exact ⟨rfl, List.any_eq_true.mp h⟩
  | set key value mtime => exact nomatch h
  | delete key => exact nomatch h
  | clear => exact nomatch h

/-- An entry is dropped that is too old, or that the operation puts an end to. -/
theorem Change.of_find {op : Op κ α} {answer : Answer α} {e : Entry α}
    (hfind : c.find? key = some e) (hquiet : op.touched? answer = none)
    (honly : ∀ k e, op.Ends k e → k = key) (hbad : c.expired now e = true ∨ op.Ends key e) :
    Change c now op answer (c.erase key).entries := by
  refine .erased hquiet honly ?_
  intro e' he'
  obtain rfl : e = e' := Option.some.inj (hfind.symm.trans he')
  exact hbad

/-- A lookup finds an entry, drops one that is too old, or finds none. -/
theorem get_change (c : Cache κ α) (now : Time) (key : κ) :
    Change c now (.get key) (.found (c.get now key).1) (c.get now key).2.entries := by
  cases hfind : c.find? key with
  | none =>
    simp only [get, hfind]
    exact .unchanged rfl fun _ _ _ => id
  | some e =>
    by_cases hage : c.expired now e = true
    · simp only [get, hfind, if_pos hage]
      exact .of_find hfind rfl (fun _ _ => False.elim) (.inl hage)
    · simp only [get, hfind, if_neg hage]
      exact .promoted hfind (Bool.eq_false_iff.mpr hage)

theorem contains_change (c : Cache κ α) (now : Time) (key : κ) :
    Change c now (.contains key) (.held (c.contains now key).1)
      (c.contains now key).2.entries := by
  cases hfind : c.find? key with
  | none =>
    simp only [contains, hfind]
    exact .unchanged rfl fun _ _ _ => id
  | some e =>
    by_cases hage : c.expired now e = true
    · simp only [contains, hfind, if_pos hage]
      exact .of_find hfind rfl (fun _ _ => False.elim) (.inl hage)
    · simp only [contains, hfind, if_neg hage]
      exact .unchanged rfl fun _ _ _ => id

/-- A test drops an entry that does not pass it, and nothing else. -/
theorem isValid_change (c : Cache κ α) (now : Time) (key : κ) (mtime : Time) :
    Change c now (.isValid key mtime) (.held (c.isValid now key mtime).1)
      (c.isValid now key mtime).2.entries := by
  cases hfind : c.find? key with
  | none =>
    simp only [isValid, hfind]
    -- a key without an entry has none that could be ended
    refine .unchanged rfl ?_
    rintro k e he ⟨rfl, -⟩
    exact absurd (hfind.symm.trans he) (by simp)
  | some e =>
    by_cases hbad : (c.expired now e || outdated mtime e) = true
    · simp only [isValid, hfind, if_pos hbad]
      refine .of_find hfind rfl (fun k _ h => h.1.symm) ?_
      exact (Bool.or_eq_true_iff.mp hbad).imp id fun h => ⟨rfl, h⟩
    · -- an entry that passes is not outdated, so the test does not end it
      simp only [isValid, hfind, if_neg hbad]
      refine .unchanged rfl ?_
      rintro k e' he' ⟨rfl, hout⟩
      obtain rfl : e = e' := Option.some.inj (hfind.symm.trans he')
      exact hbad (Bool.or_eq_true_iff.mpr (.inr hout))

/-- **What an operation does.** -/
theorem apply_change (c : Cache κ α) (now : Time) (op : Op κ α) :
    Change c now op (op.apply c now).1 (op.apply c now).2.entries := by
  unfold Op.apply
  split
  next hundated =>
    obtain ⟨hquiet, x, hx, hage⟩ := Op.isUndated_cases hundated
    exact .undated hquiet hx hage
  next hdated =>
    cases op with
    | get key => exact get_change c now key
    | set key value mtime => exact .stored
    | delete key => exact .erased rfl (fun _ _ h => h.symm) fun _ _ => .inr rfl
    | isValid key mtime => exact isValid_change c now key mtime
    | contains key => exact contains_change c now key
    | cleanup => exact .cleaned
    | clear => exact .cleared

/-- No operation changes how much a cache holds, nor how long. -/
theorem apply_frame (c : Cache κ α) (now : Time) (op : Op κ α) :
    (op.apply c now).2.capacity = c.capacity ∧ (op.apply c now).2.ttl = c.ttl := by
  unfold Op.apply
  split
  next => exact ⟨rfl, rfl⟩
  next =>
    cases op with
    | delete key | cleanup | clear => exact ⟨rfl, rfl⟩
    | get key | set key value mtime | isValid key mtime | contains key =>
      simp only [Op.perform, get, set, isValid, contains]
      split
      · exact ⟨rfl, rfl⟩
      · split <;> exact ⟨rfl, rfl⟩

end Apply

/-! ## §3. Runs. -/

/-- An operation that took place. -/
structure Event (κ α : Type) where
  now : Time
  op : Op κ α
  answer : Answer α
  deriving DecidableEq

/-- A cache in use, with everything that was done before, the latest first. -/
structure Run (κ α : Type) where
  past : List (Event κ α)
  cache : Cache κ α

/-- One more operation. -/
def Run.step (r : Run κ α) (call : Time × Op κ α) : Run κ α where
  past := ⟨call.1, call.2, (call.2.apply r.cache call.1).1⟩ :: r.past
  cache := (call.2.apply r.cache call.1).2

/-- The use of a cache for some operations, one after the other. -/
def play (c : Cache κ α) (calls : List (Time × Op κ α)) : Run κ α :=
  calls.foldl Run.step ⟨[], c⟩

/-- What holds at the start and is kept by every operation holds of every
run. -/
theorem play_induction {P : Run κ α → Prop} {c : Cache κ α} (hstart : P ⟨[], c⟩)
    (hstep : ∀ r call, P r → P (r.step call)) (calls : List (Time × Op κ α)) :
    P (c.play calls) := by
  unfold play
  -- the operations that are left start from any run that `P` holds of
  generalize (⟨[], c⟩ : Run κ α) = r at *
  induction calls generalizing r with
  | nil => exact hstart
  | cons call calls ih => exact ih (r.step call) (hstep r call hstart)

/-- The cache of a run keeps its capacity and its time to live. -/
theorem play_frame (c : Cache κ α) (calls : List (Time × Op κ α)) :
    (c.play calls).cache.capacity = c.capacity ∧ (c.play calls).cache.ttl = c.ttl := by
  apply play_induction (P := fun r => r.cache.capacity = c.capacity ∧ r.cache.ttl = c.ttl)
  · exact ⟨rfl, rfl⟩
  · intro r call ih
    obtain ⟨hcapacity, httl⟩ := apply_frame r.cache call.1 call.2
    exact ⟨hcapacity.trans ih.1, httl.trans ih.2⟩

/-- What the clock has shown during a run, in its order. -/
def Run.readings (r : Run κ α) : List Time := (r.past.map Event.now).reverse

theorem readings_step (r : Run κ α) (call : Time × Op κ α) :
    (r.step call).readings = r.readings ++ [call.1] := by
  unfold Run.readings Run.step
  rw [List.map_cons, List.reverse_cons]

theorem readings_play (c : Cache κ α) (calls : List (Time × Op κ α)) :
    (c.play calls).readings = calls.map Prod.fst := by
  -- from any run on, the readings are put behind those there are
  have hfold : ∀ r : Run κ α, (calls.foldl Run.step r).readings
      = r.readings ++ calls.map Prod.fst := by
    induction calls with
    | nil => exact fun r => (List.append_nil _).symm
    | cons call calls ih =>
      intro r
      rw [List.foldl_cons, ih, readings_step, List.append_assoc]
      rfl
  exact hfold ⟨[], c⟩

omit [BEq κ] in
/-- A cache of a capacity that is at least one can be made, and is empty. -/
theorem exists_make {capacity : Int} (h : 1 ≤ capacity) (ttl : Time) :
    ∃ start : Cache κ α, make capacity ttl = .ok start ∧ (start.capacity : Int) = capacity
      ∧ start.ttl = ttl ∧ start.entries = [] := by
  refine ⟨empty capacity.toNat ttl, ?_, ?_, rfl, rfl⟩
  · unfold make
    rw [if_neg (by omega)]
  · show (capacity.toNat : Int) = capacity
    omega

/-! ## §4. Touches. -/

/-- The key that an event touched. -/
def Event.touched? (e : Event κ α) : Option κ := e.op.touched? e.answer

/-- The number of the last event that touched a key, or zero if none did. -/
def lastTouch : List (Event κ α) → κ → Nat
  | [], _ => 0
  | e :: past, key => if e.touched? == some key then past.length + 1 else lastTouch past key

theorem lastTouch_le (past : List (Event κ α)) (key : κ) : lastTouch past key ≤ past.length := by
  induction past with
  | nil => exact Nat.le_refl 0
  | cons e past ih =>
    unfold lastTouch
    rw [List.length_cons]
    split <;> omega

variable [LawfulBEq κ]

theorem lastTouch_of_touched {e : Event κ α} {key : κ} (h : e.touched? = some key)
    (past : List (Event κ α)) : lastTouch (e :: past) key = past.length + 1 := by
  simp [lastTouch, h]

theorem lastTouch_of_not_touched {e : Event κ α} {key : κ} (h : e.touched? ≠ some key)
    (past : List (Event κ α)) : lastTouch (e :: past) key = lastTouch past key := by
  simp [lastTouch, h]

end Offside.Cache
