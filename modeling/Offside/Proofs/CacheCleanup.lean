/-
  Offside.Proofs.CacheCleanup
  ───────────────────────────
  Whether it can be told that a cache was cleaned up.

  The same operations are done with two caches, and one of them is cleaned up in
  between.  As long as the two hold the same entries that are not too old, in the
  same order, their lookups agree.  Beyond those each may hold entries that are
  too old: the one that is not cleaned up anywhere, the other one only before all
  that it shares (`Trims`).

  An operation keeps the two so if it is a sparing one (`Op.spares`): an entry
  that is given up for a new key is too old, or none is.  Sparing operations are
  also the only ones: where a young entry is given up in place of an old one, a
  cleanup just before would have saved it (`noticed_of_not_spares`).
-/
import Offside.Proofs.CacheHistory

namespace Offside.Cache

variable {κ α : Type}

/-! ## §1. Two lists of entries that share what is young. -/

/-- Of two lists of entries the second one has, behind some that are old, part of
the first one, with all that is not old. -/
def Trims (old : Entry α → Bool) (es fs : List (κ × Entry α)) : Prop :=
  ∃ extra shared, fs = extra ++ shared ∧ shared.Sublist es
    ∧ (∀ x ∈ extra, old x.2 = true) ∧ ∀ x ∈ es, old x.2 = false → x ∈ shared

namespace Trims

variable {old : Entry α → Bool} {es fs : List (κ × Entry α)}

theorem refl (es : List (κ × Entry α)) : Trims old es es :=
  ⟨[], es, rfl, List.Sublist.refl es, fun _ h => absurd h List.not_mem_nil, fun _ h _ => h⟩

/-- What is not old is in both or in neither. -/
theorem mem_iff (h : Trims old es fs) {x : κ × Entry α} (hx : old x.2 = false) :
    x ∈ fs ↔ x ∈ es := by
  obtain ⟨extra, shared, rfl, hsub, hextra, hkeeps⟩ := h
  constructor
  · intro hmem
    obtain hold | hshared := List.mem_append.mp hmem
    · exact absurd (hextra x hold) (by simp [hx])
    · exact hsub.subset hshared
  · exact fun hmem => List.mem_append_right _ (hkeeps x hmem hx)

theorem filter (h : Trims old es fs) (p : κ × Entry α → Bool) :
    Trims old (es.filter p) (fs.filter p) := by
  obtain ⟨extra, shared, rfl, hsub, hextra, hkeeps⟩ := h
  refine ⟨extra.filter p, shared.filter p, List.filter_append .., hsub.filter p, ?_, ?_⟩
  · exact fun x hx => hextra x (List.mem_filter.mp hx).1
  · intro x hx hyoung
    obtain ⟨hmem, hp⟩ := List.mem_filter.mp hx
    exact List.mem_filter.mpr ⟨hkeeps x hmem hyoung, hp⟩

theorem append (h : Trims old es fs) (gs : List (κ × Entry α)) :
    Trims old (es ++ gs) (fs ++ gs) := by
  obtain ⟨extra, shared, rfl, hsub, hextra, hkeeps⟩ := h
  refine ⟨extra, shared ++ gs, List.append_assoc .., hsub.append (List.Sublist.refl gs), hextra, ?_⟩
  intro x hx hyoung
  obtain hmem | hgs := List.mem_append.mp hx
  · exact List.mem_append_left _ (hkeeps x hmem hyoung)
  · exact List.mem_append_right _ hgs

/-- More can be dropped from the second list as long as it is old. -/
theorem trim (h : Trims old es fs) {p : κ × Entry α → Bool}
    (hp : ∀ x ∈ fs, old x.2 = false → p x = true) : Trims old es (fs.filter p) := by
  obtain ⟨extra, shared, rfl, hsub, hextra, hkeeps⟩ := h
  refine ⟨extra.filter p, shared.filter p, List.filter_append ..,
    List.filter_sublist.trans hsub, ?_, ?_⟩
  · exact fun x hx => hextra x (List.mem_filter.mp hx).1
  · intro x hx hyoung
    have hshared := hkeeps x hx hyoung
    exact List.mem_filter.mpr ⟨hshared, hp x (List.mem_append_right _ hshared) hyoung⟩

/-- What is old stays old. -/
theorem age {old' : Entry α → Bool} (h : Trims old es fs)
    (hes : ∀ x ∈ es, old x.2 = true → old' x.2 = true)
    (hfs : ∀ x ∈ fs, old x.2 = true → old' x.2 = true) : Trims old' es fs := by
  obtain ⟨extra, shared, rfl, hsub, hextra, hkeeps⟩ := h
  refine ⟨extra, shared, rfl, hsub, ?_, ?_⟩
  · exact fun x hx => hfs x (List.mem_append_left _ hx) (hextra x hx)
  · intro x hx hyoung
    refine hkeeps x hx (Bool.eq_false_iff.mpr fun hold => ?_)
    rw [hes x hx hold] at hyoung
    exact absurd hyoung (by decide)

/-- An old entry that the first list gives up goes to those that the second one
has before all that is shared. -/
theorem drop_old {x : κ × Entry α} (h : Trims old (x :: es) fs) (hx : old x.2 = true) :
    Trims old es fs := by
  obtain ⟨extra, shared, rfl, hsub, hextra, hkeeps⟩ := h
  have hyoung : ∀ y ∈ es, old y.2 = false → y ∈ shared := by
    exact fun y hy => hkeeps y (List.mem_cons_of_mem _ hy)
  cases hsub with
  | cons _ hsub => exact ⟨extra, shared, rfl, hsub, hextra, hyoung⟩
  | cons_cons _ hsub =>
    rename_i rest
    refine ⟨extra ++ [x], rest, by simp, hsub, ?_, ?_⟩
    · intro y hy
      obtain hy | hy := List.mem_append.mp hy
      · exact hextra y hy
      · rwa [List.mem_singleton.mp hy]
    · intro y hy hage
      -- the entry given up is old and this one is not
      refine (List.mem_cons.mp (hyoung y hy hage)).resolve_left ?_
      rintro rfl
      rw [hx] at hage
      exact absurd hage (by decide)

/-- A longest second list that is not the first one starts with an old entry of
its own. -/
theorem drop_extra {n : Nat} (h : Trims old es fs) (hes : es.length ≤ n) (hfs : n ≤ fs.length)
    (hne : fs ≠ es) : Trims old es (fs.drop 1) := by
  obtain ⟨extra, shared, rfl, hsub, hextra, hkeeps⟩ := h
  cases extra with
  | nil => exact absurd (hsub.eq_of_length_le (hes.trans hfs)) hne
  | cons x extra =>
    exact ⟨extra, shared, rfl, hsub, fun y hy => hextra y (List.mem_cons_of_mem _ hy), hkeeps⟩

/-- Where the first list is a longest one and has nothing old, there is nothing
to tell the two apart. -/
theorem eq_of_young {n : Nat} (h : Trims old es fs) (hdistinct : es.Nodup)
    (hyoung : ∀ x ∈ es, old x.2 = false) (hes : n ≤ es.length) (hfs : fs.length ≤ n) : fs = es := by
  obtain ⟨extra, shared, rfl, hsub, hextra, hkeeps⟩ := h
  have hall : es.length ≤ shared.length :=
    (List.subperm_of_subset hdistinct fun x hx => hkeeps x hx (hyoung x hx)).length_le
  obtain rfl := hsub.eq_of_length_le hall
  rw [List.length_append] at hfs
  have hnone : extra = [] := List.length_eq_zero_iff.mp (by omega)
  rw [hnone, List.nil_append]

end Trims

variable [BEq κ]

/-! ## §2. Sparing operations and extra cleanups. -/

/-- Whether a key is new and there is no place for it. -/
def isFullFor (c : Cache κ α) (key : κ) : Bool :=
  (c.find? key).isNone && decide (c.capacity ≤ c.entries.length)

/-- The entry that an operation gives up for a new key. -/
def Op.givesUp? (c : Cache κ α) : Op κ α → Option (κ × Entry α)
  | .set key _ _ => if c.isFullFor key then c.entries.head? else none
  | _ => none

/-- Whether what an operation gives up is too old, unless no entry is. -/
def Op.spares (c : Cache κ α) (now : Time) (op : Op κ α) : Bool :=
  match op.givesUp? c with
  | none => true
  | some x => c.expired now x.2 || c.entries.all fun y => !c.expired now y.2

/-- Whether all operations that are to come are sparing. -/
def Run.spares (r : Run κ α) : List (Time × Op κ α) → Bool
  | [] => true
  | call :: calls => call.2.spares r.cache call.1 && (r.step call).spares calls

/-- Whether an operation asks for the entry of a key. -/
def Op.asks : Op κ α → Bool
  | .get _ | .contains _ | .isValid _ _ => true
  | .set .. | .delete _ | .cleanup | .clear => false

/-- The answers to all that was asked in a run, the latest first. -/
def Run.lookups (r : Run κ α) : List (Answer α) :=
  (r.past.filter (·.op.asks)).map Event.answer

/-- The same operations with cleanups among them. -/
inductive Interspersed : List (Time × Op κ α) → List (Time × Op κ α) → Prop
  | nil : Interspersed [] []
  | call (x : Time × Op κ α) {calls more : List (Time × Op κ α)} :
      Interspersed calls more → Interspersed (x :: calls) (x :: more)
  | cleanup (now : Time) {calls more : List (Time × Op κ α)} :
      Interspersed calls more → Interspersed calls ((now, .cleanup) :: more)

/-- However many cleanups take place among some operations, on a clock that does
not go back, everything that is asked is answered as without them. -/
def Unnoticed (start : Cache κ α) (calls : List (Time × Op κ α)) : Prop :=
  ∀ more, Interspersed calls more → Time.Clock (more.map Prod.fst) →
    (start.play more).lookups = (start.play calls).lookups

/-! ## §3. Entries that are not too old. -/

/-- The entry of a key, if it is not too old. -/
def fresh? (c : Cache κ α) (now : Time) (key : κ) : Option (Entry α) :=
  (c.find? key).filter fun e => !c.expired now e

section Fresh

variable {c : Cache κ α} {now : Time} {key : κ}

/-- A key without an entry has nothing to erase. -/
theorem erase_of_find?_none (h : c.find? key = none) : (c.erase key).entries = c.entries := by
  unfold find? at h
  rw [Option.map_eq_none_iff, List.find?_eq_none] at h
  apply List.filter_eq_self.mpr
  intro x hx
  simpa using h x hx

theorem get_eq_fresh? :
    (c.get now key).1 = (c.fresh? now key).map (·.value)
      ∧ (c.get now key).2.entries
          = (c.erase key).entries ++ ((c.fresh? now key).map (key, ·)).toList := by
  unfold get fresh?
  cases hfind : c.find? key with
  | none => simp [erase_of_find?_none hfind]
  | some e => cases hage : c.expired now e <;> simp [promote, erase, Option.filter, hage]

theorem contains_eq_fresh? :
    (c.contains now key).1 = (c.fresh? now key).isSome
      ∧ (c.contains now key).2.entries
          = if (c.fresh? now key).isSome then c.entries else (c.erase key).entries := by
  unfold contains fresh?
  cases hfind : c.find? key with
  | none => simp [erase_of_find?_none hfind]
  | some e => cases hage : c.expired now e <;> simp [Option.filter, hage]

theorem isValid_eq_fresh? (mtime : Time) :
    (c.isValid now key mtime).1 = (c.fresh? now key).any (fun e => !outdated mtime e)
      ∧ (c.isValid now key mtime).2.entries
          = if (c.fresh? now key).any (fun e => !outdated mtime e) then c.entries
            else (c.erase key).entries := by
  unfold isValid fresh?
  cases hfind : c.find? key with
  | none => simp [erase_of_find?_none hfind]
  | some e =>
    cases hage : c.expired now e <;> cases hnew : outdated mtime e <;>
      simp [Option.filter, hage, hnew]

/-- No operation fails where the age of every entry can be told. -/
theorem Op.apply_of_dated (op : Op κ α) (h : ∀ x ∈ c.entries, ageless now x.2 = false) :
    op.apply c now = op.perform c now := by
  unfold Op.apply
  rw [if_neg]
  intro hundated
  obtain ⟨-, x, hx, hage⟩ := Op.isUndated_cases hundated
  rw [h x hx] at hage
  exact absurd hage (by decide)

theorem isFullFor_iff :
    c.isFullFor key = true ↔ c.find? key = none ∧ c.capacity ≤ c.entries.length := by
  unfold isFullFor
  rw [Bool.and_eq_true, Option.isNone_iff_eq_none, decide_eq_true_eq]

/-- A sparing operation gives up an old entry, unless all are young. -/
theorem old_or_young {x : κ × Entry α} {rest : List (κ × Entry α)} {value : α}
    {mtime : Option Time} (hfull : c.isFullFor key = true) (hentries : c.entries = x :: rest)
    (hspares : (Op.set key value mtime).spares c now = true) :
    c.expired now x.2 = true ∨ ∀ y ∈ c.entries, c.expired now y.2 = false := by
  have hgives : (Op.set key value mtime).givesUp? c = some x := by
    simp only [Op.givesUp?, hfull, if_true, hentries, List.head?_cons]
  simpa only [Op.spares, hgives, Bool.or_eq_true, List.all_eq_true, Bool.not_eq_true'] using hspares

/-- What is left of the entries before a new one is put behind them. -/
def makeRoom (c : Cache κ α) (key : κ) : List (κ × Entry α) :=
  if c.isFullFor key then c.entries.drop 1 else (c.erase key).entries

theorem entries_set (value : α) (mtime : Option Time) :
    (c.set now key value mtime).entries = c.makeRoom key ++ [(key, ⟨value, now, mtime⟩)] := by
  unfold set makeRoom isFullFor
  cases hfind : c.find? key with
  | some e => rfl
  | none =>
    by_cases hfull : c.capacity ≤ c.entries.length <;> simp [hfull, erase_of_find?_none hfind]

theorem makeRoom_sublist (c : Cache κ α) (key : κ) : (c.makeRoom key).Sublist c.entries := by
  unfold makeRoom
  split
  · exact List.drop_sublist 1 _
  · exact List.filter_sublist

variable [LawfulBEq κ]

theorem fresh?_eq_some_iff (hdistinct : c.keys.Nodup) {e : Entry α} :
    c.fresh? now key = some e ↔ (key, e) ∈ c.entries ∧ c.expired now e = false := by
  unfold fresh?
  rw [Option.filter_eq_some_iff, Bool.not_eq_true']
  exact and_congr_left fun _ => ⟨mem_of_find?, find?_of_mem hdistinct⟩

end Fresh

/-! ## §4. One operation on two caches. -/

/-- A cache as it is in use: its keys are distinct and no more than it can hold,
and the age of every entry can be told. -/
structure Usable (now : Time) (c : Cache κ α) : Prop where
  distinct : c.keys.Nodup
  room : c.entries.length ≤ c.capacity
  dated : ∀ x ∈ c.entries, ageless now x.2 = false

/-- Two caches of one kind that share what is not too old at a time. -/
structure Paired (now : Time) (c d : Cache κ α) : Prop where
  capacity : d.capacity = c.capacity
  ttl : d.ttl = c.ttl
  trims : Trims (c.expired now) c.entries d.entries

omit [BEq κ] in
theorem expired_eq_of_ttl {c d : Cache κ α} (h : d.ttl = c.ttl) (now : Time) :
    d.expired now = c.expired now := by
  funext e
  unfold expired
  rw [h]

namespace Paired

variable {now : Time} {c d : Cache κ α}

omit [BEq κ] in
/-- Two caches that share what is not too old do so later as well. -/
theorem later (h : Paired now c d) {later : Time}
    (hc : ∀ x ∈ c.entries, c.expired now x.2 = true → c.expired later x.2 = true)
    (hd : ∀ x ∈ d.entries, d.expired now x.2 = true → d.expired later x.2 = true) :
    Paired later c d := by
  rw [expired_eq_of_ttl h.ttl, expired_eq_of_ttl h.ttl] at hd
  exact ⟨h.capacity, h.ttl, h.trims.age hc hd⟩

/-- What the first one gives up is old, as it has something old, so nothing that
is shared is lost. -/
theorem giveUp (h : Paired now c d) (hdistinct : c.keys.Nodup)
    (hroom : d.entries.length ≤ c.capacity) (hdiffer : d.entries ≠ c.entries) {key : κ}
    {value : α} {mtime : Option Time} (hspares : (Op.set key value mtime).spares c now = true) :
    Trims (c.expired now) (c.makeRoom key) (d.erase key).entries := by
  have herase : Trims (c.expired now) (c.erase key).entries (d.erase key).entries :=
    h.trims.filter _
  unfold Cache.makeRoom
  cases hfull : c.isFullFor key with
  | false => exact herase
  | true =>
    obtain ⟨hnew, hlength⟩ := isFullFor_iff.mp hfull
    rw [erase_of_find?_none hnew] at herase
    cases hentries : c.entries with
    | nil =>
      rw [hentries] at herase
      exact herase
    | cons x rest =>
      rw [hentries] at herase
      refine herase.drop_old ((old_or_young hfull hentries hspares).resolve_right ?_)
      exact fun hyoung => hdiffer (h.trims.eq_of_young hdistinct.of_map hyoung hlength hroom)

/-- **Room is made in both**, and what is not too old is left in both, if the
first one gives up nothing young in place of an old entry. -/
theorem makeRoom (h : Paired now c d) (hc : Usable now c) (hd : Usable now d) {key : κ}
    {value : α} {mtime : Option Time} (hspares : (Op.set key value mtime).spares c now = true) :
    Trims (c.expired now) (c.makeRoom key) (d.makeRoom key) := by
  have hroom := hd.room
  rw [h.capacity] at hroom
  by_cases hsame : d.entries = c.entries
  · -- equal entries are treated alike
    have hfull : d.isFullFor key = c.isFullFor key := by
      unfold isFullFor find?
      rw [hsame, h.capacity]
    have heq : d.makeRoom key = c.makeRoom key := by
      unfold Cache.makeRoom erase
      rw [hsame, hfull]
    rw [heq]
    exact Trims.refl _
  · have hleft := h.giveUp hc.distinct hroom hsame hspares
    rw [show d.makeRoom key = if d.isFullFor key then d.entries.drop 1 else (d.erase key).entries
      from rfl]
    cases hfull : d.isFullFor key with
    | false => exact hleft
    | true =>
      -- what the second one gives up is none of what they share
      obtain ⟨hnew, hlength⟩ := isFullFor_iff.mp hfull
      rw [erase_of_find?_none hnew] at hleft
      rw [h.capacity] at hlength
      have hsub := c.makeRoom_sublist key
      refine hleft.drop_extra (hsub.length_le.trans hc.room) hlength fun heq => hsame ?_
      rw [heq] at hlength ⊢
      exact hsub.eq_of_length_le (hc.room.trans hlength)

variable [LawfulBEq κ]

/-- The two have the same to offer for every key. -/
theorem fresh? (h : Paired now c d) (hc : Usable now c) (hd : Usable now d) (key : κ) :
    d.fresh? now key = c.fresh? now key := by
  apply Option.ext
  intro e
  rw [fresh?_eq_some_iff hc.distinct, fresh?_eq_some_iff hd.distinct, expired_eq_of_ttl h.ttl]
  exact and_congr_left fun hage => h.trims.mem_iff hage

/-- What one operation leaves in two such caches, and how it answers. -/
theorem perform (h : Paired now c d) (hc : Usable now c) (hd : Usable now d) {op : Op κ α}
    (hspares : op.spares c now = true) :
    Trims (c.expired now) (op.perform c now).2.entries (op.perform d now).2.entries
      ∧ (op.asks = true → (op.perform d now).1 = (op.perform c now).1) := by
  -- an entry that only one of the two caches has is too old to be found in either
  have hfresh := h.fresh? hc hd
  have herase : ∀ key, Trims (c.expired now) (c.erase key).entries (d.erase key).entries :=
    fun key => h.trims.filter _
  cases op with
  | get key =>
    simp only [Op.perform, get_eq_fresh?, hfresh]
    exact ⟨(herase key).append _, fun _ => trivial⟩
  | contains key =>
    simp only [Op.perform, contains_eq_fresh?, hfresh]
    refine ⟨?_, fun _ => trivial⟩
    split
    · exact h.trims
    · exact herase key
  | isValid key mtime =>
    simp only [Op.perform, isValid_eq_fresh?, hfresh]
    refine ⟨?_, fun _ => trivial⟩
    split
    · exact h.trims
    · exact herase key
  | set key value mtime =>
    simp only [Op.perform, entries_set]
    exact ⟨(h.makeRoom hc hd hspares).append _, fun hasks => absurd hasks Bool.false_ne_true⟩
  | delete key => exact ⟨herase key, fun hasks => absurd hasks Bool.false_ne_true⟩
  | cleanup =>
    refine ⟨?_, fun hasks => absurd hasks Bool.false_ne_true⟩
    simp only [Op.perform, cleanup, expired_eq_of_ttl h.ttl]
    exact h.trims.filter _
  | clear => exact ⟨Trims.refl [], fun hasks => absurd hasks Bool.false_ne_true⟩

/-- **One operation** keeps two caches paired if it is a sparing one in the first,
and what is asked is answered alike. -/
theorem apply (h : Paired now c d) (hc : Usable now c) (hd : Usable now d) {op : Op κ α}
    (hspares : op.spares c now = true) :
    Paired now (op.apply c now).2 (op.apply d now).2
      ∧ (op.asks = true → (op.apply d now).1 = (op.apply c now).1) := by
  obtain ⟨htrims, hanswers⟩ := h.perform hc hd hspares
  obtain ⟨hcapacity, httl⟩ := apply_frame c now op
  obtain ⟨hcapacity', httl'⟩ := apply_frame d now op
  rw [← op.apply_of_dated hc.dated, ← op.apply_of_dated hd.dated] at htrims hanswers
  rw [← expired_eq_of_ttl httl] at htrims
  exact ⟨⟨hcapacity'.trans (h.capacity.trans hcapacity.symm),
    httl'.trans (h.ttl.trans httl.symm), htrims⟩, hanswers⟩

end Paired

/-! ## §5. Runs with more cleanups. -/

section Runs

variable {r r' : Run κ α}

theorem lookups_step (r : Run κ α) (call : Time × Op κ α) :
    (r.step call).lookups
      = if call.2.asks then (call.2.apply r.cache call.1).1 :: r.lookups else r.lookups := by
  unfold Run.lookups Run.step
  rw [List.filter_cons]
  split <;> rfl

omit [BEq κ] in
/-- What is too old stays so. -/
theorem Sound.expired_of_later (h : Sound r) {now later : Time}
    (hclock : Time.Clock (r.readings ++ [now, later])) (x : κ × Entry α)
    (hx : x ∈ r.cache.entries) (hold : r.cache.expired now x.2 = true) :
    r.cache.expired later x.2 = true := by
  have hstored : x.2.storedAt ∈ r.readings := (h x.1 x.2 hx).storedAt_mem
  have hthree : Time.Clock [x.2.storedAt, now, later] :=
    hclock.sublist ((List.singleton_sublist.mpr hstored).append (List.Sublist.refl _))
  by_contra hyoung
  have hpair : Time.Clock [x.2.storedAt, later] := hthree.sublist (by simp)
  have hdated : ageless later x.2 = false := Option.isNone_eq_false_iff.mpr hpair.since_isSome
  have hwithin : Time.Within r.cache.ttl x.2.storedAt later :=
    within_iff.mpr ⟨hdated, Bool.eq_false_iff.mpr hyoung⟩
  rw [(within_iff.mp (hthree.within_of_later hwithin)).2] at hold
  exact absurd hold (by decide)

/-- The cache of a run can be used at a later reading of the clock. -/
theorem Ordered.usable (h : Ordered r) (hsound : Sound r) {now : Time}
    (hclock : Time.Clock (r.readings ++ [now])) : Usable now r.cache := by
  have hroom := h.bounded
  unfold keys at hroom
  rw [List.length_map] at hroom
  exact ⟨h.distinct, hroom, hsound.dated hclock⟩

/-- Two runs, of which the second one has more cleanups and the same lookups.
Their caches share what is not too old at any later reading of the clock. -/
structure Accompanies (r r' : Run κ α) : Prop where
  ordered : Ordered r
  ordered' : Ordered r'
  sound : Sound r
  sound' : Sound r'
  readings : r.readings.Sublist r'.readings
  paired : ∀ now, Time.Clock (r'.readings ++ [now]) → Paired now r.cache r'.cache
  lookups : r'.lookups = r.lookups

variable [LawfulBEq κ]

namespace Accompanies

/-- A run accompanies itself before anything is done. -/
theorem start {c : Cache κ α} (hpos : 0 < c.capacity) (hempty : c.entries = []) :
    Accompanies (⟨[], c⟩ : Run κ α) ⟨[], c⟩ := by
  have hordered : Ordered (⟨[], c⟩ : Run κ α) := Ordered.play hpos hempty []
  have hsound : Sound (⟨[], c⟩ : Run κ α) := by
    intro key entry hmem
    rw [hempty] at hmem
    exact absurd hmem List.not_mem_nil
  exact ⟨hordered, hordered, hsound, hsound, List.Sublist.refl _,
    fun _ _ => ⟨rfl, rfl, Trims.refl _⟩, rfl⟩

/-- **One more operation in both runs.** -/
theorem step (h : Accompanies r r') {call : Time × Op κ α}
    (hclock : Time.Clock (r'.readings ++ [call.1]))
    (hspares : call.2.spares r.cache call.1 = true) :
    Accompanies (r.step call) (r'.step call) := by
  have hclock₁ : Time.Clock (r.readings ++ [call.1]) :=
    hclock.sublist (h.readings.append (List.Sublist.refl _))
  have hsound := h.sound.step h.ordered hclock₁
  have hsound' := h.sound'.step h.ordered' hclock
  have hreadings : (r.step call).readings.Sublist (r'.step call).readings := by
    rw [readings_step, readings_step]
    exact h.readings.append (List.Sublist.refl _)
  obtain ⟨hpaired, hanswers⟩ := (h.paired call.1 hclock).apply
    (h.ordered.usable h.sound hclock₁) (h.ordered'.usable h.sound' hclock) hspares
  refine ⟨h.ordered.step call, h.ordered'.step call, hsound, hsound', hreadings, ?_, ?_⟩
  · intro later hlater
    have hagain : Time.Clock ((r'.step call).readings ++ [call.1, later]) := by
      rw [readings_step, List.append_assoc] at hlater ⊢
      exact hlater.again
    exact hpaired.later
      (hsound.expired_of_later (hagain.sublist (hreadings.append (List.Sublist.refl _))))
      (hsound'.expired_of_later hagain)
  · rw [lookups_step, lookups_step, h.lookups]
    cases hasks : call.2.asks with
    | false => rfl
    | true => rw [hanswers hasks]

/-- **One more cleanup in the second run.** -/
theorem clean (h : Accompanies r r') {now : Time} (hclock : Time.Clock (r'.readings ++ [now])) :
    Accompanies r (r'.step (now, .cleanup)) := by
  have happly : (Op.cleanup : Op κ α).apply r'.cache now = Op.cleanup.perform r'.cache now :=
    Op.apply_of_dated _ (h.sound'.dated hclock)
  refine ⟨h.ordered, h.ordered'.step _, h.sound, h.sound'.step h.ordered' hclock, ?_, ?_, ?_⟩
  · rw [readings_step]
    exact h.readings.trans (List.sublist_append_left _ _)
  · intro later hlater
    rw [readings_step, List.append_assoc] at hlater
    have hpaired := h.paired later
      (hlater.sublist ((List.Sublist.refl _).append (List.sublist_append_right _ _)))
    obtain ⟨hcapacity, httl⟩ := apply_frame r'.cache now (Op.cleanup : Op κ α)
    refine ⟨hcapacity.trans hpaired.capacity, httl.trans hpaired.ttl, ?_⟩
    show Trims _ _ ((Op.cleanup : Op κ α).apply r'.cache now).2.entries
    rw [happly]
    -- what is dropped is too old already
    refine hpaired.trims.trim fun x hx hyoung => ?_
    rw [Bool.not_eq_true', Bool.eq_false_iff]
    intro hold
    have hlate := h.sound'.expired_of_later hlater x hx hold
    rw [expired_eq_of_ttl hpaired.ttl, hyoung] at hlate
    exact absurd hlate (by decide)
  · rw [lookups_step]
    exact h.lookups

/-- **Runs with more cleanups** have the same lookups, if all operations are
sparing. -/
theorem run {calls more : List (Time × Op κ α)} (hmore : Interspersed calls more)
    (h : Accompanies r r') (hclock : Time.Clock (r'.readings ++ more.map Prod.fst))
    (hspares : r.spares calls = true) :
    Accompanies (calls.foldl Run.step r) (more.foldl Run.step r') := by
  induction hmore generalizing r r' with
  | nil => exact h
  | call x _ ih =>
    obtain ⟨hx, hrest⟩ := Bool.and_eq_true_iff.mp hspares
    have hnow : Time.Clock (r'.readings ++ [x.1]) :=
      hclock.sublist ((List.Sublist.refl _).append (by simp))
    refine ih (h.step hnow hx) ?_ hrest
    rwa [readings_step, List.append_assoc]
  | cleanup now _ ih =>
    have hnow : Time.Clock (r'.readings ++ [now]) :=
      hclock.sublist ((List.Sublist.refl _).append (by simp))
    refine ih (h.clean hnow) ?_ hspares
    rwa [readings_step, List.append_assoc]

end Accompanies

end Runs

/-! ## §6. Where a cleanup is noticed. -/

/-- A sequence of operations that are not all sparing has a first one that is
not. -/
theorem exists_not_spares {r : Run κ α} {calls : List (Time × Op κ α)}
    (h : r.spares calls = false) :
    ∃ done call rest, calls = done ++ call :: rest
      ∧ call.2.spares (done.foldl Run.step r).cache call.1 = false := by
  induction calls generalizing r with
  | nil => exact absurd h (by simp [Run.spares])
  | cons call calls ih =>
    obtain hnow | hlater := Bool.and_eq_false_iff.mp h
    · exact ⟨[], call, calls, rfl, hnow⟩
    · obtain ⟨done, call', rest, rfl, hcall⟩ := ih hlater
      exact ⟨call :: done, call', rest, rfl, hcall⟩

section Noticed

variable {c : Cache κ α} {now : Time}

/-- An operation that is not sparing stores a new key in a full cache, and gives
up a young entry though it has an old one. -/
theorem Op.not_spares {op : Op κ α} (h : op.spares c now = false) :
    ∃ key value mtime, op = .set key value mtime ∧ c.isFullFor key = true
      ∧ ∃ x rest, c.entries = x :: rest ∧ c.expired now x.2 = false
        ∧ ∃ y ∈ c.entries, c.expired now y.2 = true := by
  unfold Op.spares at h
  cases hgives : op.givesUp? c with
  | none => simp [hgives] at h
  | some x =>
    simp only [hgives, Bool.or_eq_false_iff, List.all_eq_false, Bool.not_eq_true',
      Bool.not_eq_false] at h
    cases op with
    | set key value mtime =>
      simp only [Op.givesUp?, Option.ite_none_right_eq_some, List.head?_eq_some_iff] at hgives
      obtain ⟨hfull, rest, hentries⟩ := hgives
      exact ⟨key, value, mtime, rfl, hfull, x, rest, hentries, h⟩
    | get _ | delete _ | isValid _ _ | contains _ | cleanup | clear =>
      exact absurd hgives (by simp [Op.givesUp?])

variable [LawfulBEq κ] {key : κ} {x : κ × Entry α} {rest : List (κ × Entry α)}

/-- A key that has no place yet is none of those that have one. -/
theorem key_ne_of_isFullFor (hfull : c.isFullFor key = true) (hx : x ∈ c.entries) : x.1 ≠ key := by
  rintro rfl
  have hknown : x.1 ∈ c.keys := List.mem_map_of_mem hx
  rw [← c.find?_isSome_iff, (isFullFor_iff.mp hfull).1] at hknown
  exact absurd hknown Bool.false_ne_true

/-- What was given up is not found any more. -/
theorem fresh?_set_of_full (hdistinct : c.keys.Nodup) (hfull : c.isFullFor key = true)
    (hentries : c.entries = x :: rest) {value : α} {mtime : Option Time}
    (hafter : (c.set now key value mtime).keys.Nodup) :
    (c.set now key value mtime).fresh? now x.1 = none := by
  rw [Option.eq_none_iff_forall_ne_some]
  intro e he
  obtain ⟨hmem, -⟩ := (fresh?_eq_some_iff hafter).mp he
  rw [entries_set, makeRoom, if_pos hfull, hentries, List.drop_one, List.tail_cons,
    List.mem_append, List.mem_singleton] at hmem
  obtain hrest | hnew := hmem
  · -- the key of the first entry does not come again
    unfold keys at hdistinct
    rw [hentries, List.map_cons, List.nodup_cons] at hdistinct
    exact hdistinct.1 (List.mem_map.mpr ⟨(x.1, e), hrest, rfl⟩)
  · obtain ⟨hkey, -⟩ := Prod.mk.inj hnew
    exact key_ne_of_isFullFor hfull (hentries ▸ List.mem_cons_self ..) hkey

/-- What is too old makes room when it is cleaned up, and so all that is young is
found afterwards. -/
theorem fresh?_set_cleanup (hfull : c.isFullFor key = true)
    (hroom : c.entries.length ≤ c.capacity) (hx : x ∈ c.entries)
    (hyoung : c.expired now x.2 = false) {y : κ × Entry α} (hy : y ∈ c.entries)
    (hold : c.expired now y.2 = true) {value : α} {mtime : Option Time}
    (hafter : ((c.cleanup now).2.set now key value mtime).keys.Nodup) :
    ((c.cleanup now).2.set now key value mtime).fresh? now x.1 = some x.2 := by
  have hshorter : (c.cleanup now).2.entries.length < c.entries.length :=
    List.length_filter_lt_length_iff_exists.mpr ⟨y, hy, by simp [hold]⟩
  have hfits : (c.cleanup now).2.isFullFor key = false := by
    rw [Bool.eq_false_iff, ne_eq, isFullFor_iff]
    rintro ⟨-, hlength⟩
    have hcapacity : (c.cleanup now).2.capacity = c.capacity := rfl
    omega
  have httl : ((c.cleanup now).2.set now key value mtime).ttl = c.ttl :=
    (apply_frame (c.cleanup now).2 now (.set key value mtime)).2
  refine (fresh?_eq_some_iff hafter).mpr ⟨?_, by rwa [expired_eq_of_ttl httl]⟩
  rw [entries_set, makeRoom, if_neg (by simp [hfits])]
  refine List.mem_append_left _ (mem_erase_iff.mpr ⟨List.mem_filter.mpr ⟨hx, by simp [hyoung]⟩, ?_⟩)
  exact key_ne_of_isFullFor hfull hx

end Noticed

/-- A lookup in a run answers with the entry that is not too old. -/
theorem lookups_get {r : Run κ α} (hsound : Sound r) {now : Time}
    (hclock : Time.Clock (r.readings ++ [now])) (key : κ) :
    (r.step (now, .get key)).lookups
      = .found ((r.cache.fresh? now key).map (·.value)) :: r.lookups := by
  have hanswer : ((Op.get key).apply r.cache now).1
      = .found ((r.cache.fresh? now key).map (·.value)) := by
    rw [Op.apply_of_dated _ (hsound.dated hclock)]
    simp only [Op.perform, get_eq_fresh?]
  rw [lookups_step, ← hanswer]
  rfl

variable [LawfulBEq κ]

/-- **A young entry that is given up in place of an old one** would have been
found after a cleanup. -/
theorem noticed_of_not_spares {r : Run κ α} (hordered : Ordered r) (hsound : Sound r)
    {now : Time} {op : Op κ α} (hclock : Time.Clock (r.readings ++ [now]))
    (h : op.spares r.cache now = false) :
    ∃ key, (((r.step (now, .cleanup)).step (now, op)).step (now, .get key)).lookups
      ≠ ((r.step (now, op)).step (now, .get key)).lookups := by
  obtain ⟨key, value, mtime, rfl, hfull, x, rest, hentries, hyoung, y, hy, hold⟩ :=
    Op.not_spares h
  have husable := hordered.usable hsound hclock
  have hcleaned : (r.step (now, .cleanup)).cache = (r.cache.cleanup now).2 :=
    congrArg Prod.snd (Op.apply_of_dated .cleanup husable.dated)
  -- the clock shows the same time for all of them
  have hagain : ∀ (r : Run κ α) (op : Op κ α), Time.Clock (r.readings ++ [now]) →
      Time.Clock ((r.step (now, op)).readings ++ [now]) := by
    intro r op hclock
    rw [readings_step, List.append_assoc]
    exact hclock.again
  have hclock₁ := hagain r (.set key value mtime) hclock
  have hclock₂ := hagain r .cleanup hclock
  have hclock₃ := hagain _ (.set key value mtime) hclock₂
  have hordered₁ := hordered.step (now, .set key value mtime)
  have hordered₂ := hordered.step (now, .cleanup)
  have hordered₃ := hordered₂.step (now, .set key value mtime)
  have hsound₁ : Sound (r.step (now, .set key value mtime)) := hsound.step hordered hclock
  have hsound₂ : Sound (r.step (now, .cleanup)) := hsound.step hordered hclock
  have hsound₃ : Sound ((r.step (now, .cleanup)).step (now, .set key value mtime)) :=
    hsound₂.step hordered₂ hclock₂
  have hlost : (r.step (now, .set key value mtime)).cache.fresh? now x.1 = none :=
    fresh?_set_of_full husable.distinct hfull hentries hordered₁.distinct
  have hsaved : ((r.step (now, .cleanup)).step (now, .set key value mtime)).cache.fresh? now x.1
      = some x.2 := by
    have hafter : ((r.step (now, .cleanup)).cache.set now key value mtime).keys.Nodup :=
      hordered₃.distinct
    show ((r.step (now, .cleanup)).cache.set now key value mtime).fresh? now x.1 = some x.2
    rw [hcleaned] at hafter ⊢
    exact fresh?_set_cleanup hfull husable.room (hentries ▸ List.mem_cons_self ..) hyoung hy hold
      hafter
  refine ⟨x.1, ?_⟩
  rw [lookups_get hsound₁ hclock₁, lookups_get hsound₃ hclock₃, hlost, hsaved]
  intro hsame
  exact absurd (Answer.found.inj (List.cons.inj hsame).1) (Option.some_ne_none _)

omit [BEq κ] [LawfulBEq κ] in
/-- A single cleanup among some operations. -/
theorem Interspersed.one (done rest : List (Time × Op κ α)) (now : Time) :
    Interspersed (done ++ rest) (done ++ (now, .cleanup) :: rest) := by
  have hrefl : ∀ calls : List (Time × Op κ α), Interspersed calls calls := by
    intro calls
    induction calls with
    | nil => exact .nil
    | cons x calls ih => exact .call x ih
  induction done with
  | nil => exact .cleanup now (hrefl rest)
  | cons x done ih => exact .call x ih

/-- **Cleanups go unnoticed where the cache is sparing, and only there.**  As long
as no entry that is young enough is given up while the cache still has one that
is too old, all lookups are answered as they are without the cleanups.  Where
one is given up so, there is a lookup that tells the two apart. -/
theorem cleanups_unnoticed (capacity : Int) (hcapacity : 1 ≤ capacity) (ttl : Time) :
    ∃ start : Cache κ α, make capacity ttl = .ok start ∧ ∀ calls : List (Time × Op κ α),
      (Run.spares ⟨[], start⟩ calls = true → Unnoticed start calls)
      ∧ (Time.Clock (calls.map Prod.fst) → Run.spares ⟨[], start⟩ calls = false →
          ∃ done rest now key, calls = done ++ rest ∧ Time.Clock (done.map Prod.fst ++ [now])
            ∧ ¬ Unnoticed start (done ++ [(now, .get key)])) := by
  obtain ⟨start, hmake, hcap, -, hempty⟩ := exists_make (κ := κ) (α := α) hcapacity ttl
  have hpos : 0 < start.capacity := by omega
  refine ⟨start, hmake, fun calls => ⟨?_, ?_⟩⟩
  · intro hspares more hmore hclock
    exact ((Accompanies.start hpos hempty).run hmore hclock hspares).lookups
  · intro hclock hspares
    -- a call gives up a young entry in place of an old one: clean up just before it, and
    -- ask for what it gave up just after
    obtain ⟨done, ⟨now, op⟩, rest, rfl, hop⟩ := exists_not_spares hspares
    obtain ⟨hordered, hsound, -⟩ := sound_and_complete hpos hempty done
    have hnow : Time.Clock (done.map Prod.fst ++ [now]) :=
      hclock.sublist (by simp)
    rw [← readings_play start done] at hnow
    have hsound := hsound (hnow.sublist (List.sublist_append_left _ _))
    obtain ⟨key, hdiffer⟩ := noticed_of_not_spares hordered hsound hnow hop
    rw [readings_play] at hnow
    refine ⟨done ++ [(now, op)], rest, now, key, by simp, ?_, ?_⟩
    · simpa using hnow.again
    · intro hunnoticed
      have hone := Interspersed.one done [(now, op), (now, .get key)] now
      have hthree : Time.Clock
          ((done ++ (now, .cleanup) :: [(now, op), (now, .get key)]).map Prod.fst) := by
        simpa using hnow.again.again
      have hsame := hunnoticed _ (by simpa using hone) hthree
      simp only [play, List.foldl_append, List.foldl_cons, List.foldl_nil] at hsame hdiffer
      exact hdiffer hsame

/-- Operations in which an entry that is too old is given up for a new one, though
another one that is too old stays. -/
def oldGivenUp : List (Time × Op String Nat) :=
  [(.whole 0, .set "a" 1 none), (.whole 2, .set "b" 2 none), (.whole 3, .get "a"),
    (.whole 13, .set "c" 3 none), (.whole 14, .get "c"), (.whole 14, .contains "b")]

/-- The cleanup at 11 drops `a` and leaves `b`, which is given up at 13 without
it. -/
theorem cleanups_unnoticed_old_given_up :
    ∃ start : Cache String Nat, make 2 (.whole 10) = .ok start
      ∧ Run.spares ⟨[], start⟩ oldGivenUp = true
      ∧ (start.play (oldGivenUp.take 3 ++ (.whole 11, .cleanup) :: oldGivenUp.drop 3)).lookups
        = [.held false, .found (some 3), .found (some 1)] := by
  obtain ⟨start, hmake, hall⟩ :=
    cleanups_unnoticed (κ := String) (α := Nat) 2 (by decide) (.whole 10)
  obtain rfl : empty 2 (.whole 10) = start := Except.ok.inj hmake
  have hspares : Run.spares ⟨[], empty 2 (.whole 10)⟩ oldGivenUp = true := by decide +kernel
  have hclock : Time.Clock
      ((oldGivenUp.take 3 ++ (.whole 11, .cleanup) :: oldGivenUp.drop 3).map Prod.fst) := by
    refine ⟨by decide +kernel, by decide +kernel, .inl ?_⟩
    simp [oldGivenUp]
  have hsame := (hall oldGivenUp).1 hspares _
    (Interspersed.one (oldGivenUp.take 3) (oldGivenUp.drop 3) (.whole 11)) hclock
  refine ⟨_, hmake, hspares, hsame.trans ?_⟩
  decide +kernel

/-- Operations in which an entry that is young enough is given up for a new one,
as one that is too old was looked up after it was stored. -/
def youngGivenUp : List (Time × Op String Nat) :=
  [(.whole 0, .set "old" 1 none), (.whole 5, .set "young" 2 none), (.whole 6, .get "old"),
    (.whole 12, .set "new" 3 none), (.whole 13, .get "young")]

/-- **An entry that is too old is in the way of a young one.**  A cleanup just
before the third key is stored decides whether `young` is found afterwards. -/
theorem old_entry_displaces_young :
    ∃ start : Cache String Nat, make 2 (.whole 10) = .ok start
      ∧ Time.Clock ((youngGivenUp.take 3 ++ (.whole 12, .cleanup) :: youngGivenUp.drop 3).map
          Prod.fst)
      ∧ (start.play (youngGivenUp.take 3 ++ (.whole 12, .cleanup) :: youngGivenUp.drop 3)).lookups
        = [.found (some 2), .found (some 1)]
      ∧ (start.play youngGivenUp).lookups = [.found none, .found (some 1)]
      ∧ ¬ Unnoticed start youngGivenUp := by
  have hclock : Time.Clock ((youngGivenUp.take 3 ++ (.whole 12, .cleanup) ::
      youngGivenUp.drop 3).map Prod.fst) := by
    refine ⟨by decide +kernel, by decide +kernel, .inl ?_⟩
    simp [youngGivenUp]
  have hcleaned : ((empty 2 (.whole 10)).play (youngGivenUp.take 3 ++ (.whole 12, .cleanup) ::
      youngGivenUp.drop 3)).lookups = [.found (some 2), .found (some 1)] := by decide +kernel
  have hplain : ((empty 2 (.whole 10)).play youngGivenUp).lookups
      = [.found none, .found (some 1)] := by decide +kernel
  refine ⟨empty 2 (.whole 10), rfl, hclock, hcleaned, hplain, fun hunnoticed => ?_⟩
  have hsame := hunnoticed _
    (Interspersed.one (youngGivenUp.take 3) (youngGivenUp.drop 3) (.whole 12)) hclock
  rw [hcleaned] at hsame
  exact absurd (hsame.trans hplain) (by decide)

end Offside.Cache
