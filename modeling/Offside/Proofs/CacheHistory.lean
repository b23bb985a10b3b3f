/-
  Offside.Proofs.CacheHistory
  ───────────────────────────
  A cache finds what its past says it should.

  An entry `Stands` in a past if it is the last one that was stored under its key
  and nothing has put an end to it since.  On a clock that does not go back, a
  cache holds only entries that stand (`Sound`).  It holds all of them that are
  young enough, but for those whose key was crowded out: since its last touch, as
  many other keys were touched as the cache can hold (`Complete`).
-/
import Offside.Proofs.CacheOrder
import Offside.Proofs.Clock

namespace Offside.Cache

variable {κ α : Type} [BEq κ]

/-! ## §1. What the past says. -/

/-- An event stores an entry under a key. -/
def Event.Puts (key : κ) (entry : Entry α) (e : Event κ α) : Prop :=
  e.op = .set key entry.value entry.mtime ∧ e.now = entry.storedAt

/-- An entry was stored under a key, and no event since has put an end to it:
the key was not stored again nor deleted, the cache not cleared, and the entry
not found outdated. -/
def Stands (past : List (Event κ α)) (key : κ) (entry : Entry α) : Prop :=
  ∃ since put before, past = since ++ put :: before ∧ put.Puts key entry
    ∧ ∀ e ∈ since, ¬ e.op.Ends key entry

/-- The keys that were touched since the last touch of a key. -/
def touchedSince (past : List (Event κ α)) (key : κ) : List κ :=
  (past.takeWhile fun e => e.touched? != some key).filterMap Event.touched?

section Past

variable {past : List (Event κ α)} {key : κ} {entry : Entry α} {e : Event κ α}

omit [BEq κ] in
/-- What one more event leaves standing. -/
theorem stands_cons_iff :
    Stands (e :: past) key entry
      ↔ e.Puts key entry ∨ Stands past key entry ∧ ¬ e.op.Ends key entry := by
  constructor
  · rintro ⟨since, put, before, hpast, hput, hkept⟩
    -- the latest event is the one that stored the entry, or one of those since
    cases since with
    | nil =>
      obtain ⟨rfl, -⟩ := List.cons.inj hpast
      exact .inl hput
    | cons e' since =>
      obtain ⟨rfl, rfl⟩ := List.cons.inj hpast
      refine .inr ⟨⟨since, put, before, rfl, hput, ?_⟩, hkept e (List.mem_cons_self ..)⟩
      exact fun e' he' => hkept e' (List.mem_cons_of_mem _ he')
  · rintro (hput | ⟨⟨since, put, before, rfl, hput, hkept⟩, hkeeps⟩)
    · exact ⟨[], e, past, rfl, hput, fun _ h => nomatch h⟩
    · refine ⟨e :: since, put, before, rfl, hput, ?_⟩
      intro e' he'
      obtain rfl | he' := List.mem_cons.mp he'
      · exact hkeeps
      · exact hkept e' he'

omit [BEq κ] in
/-- An entry that stands is as old as one of the events. -/
theorem Stands.storedAt_mem (h : Stands past key entry) :
    entry.storedAt ∈ (past.map Event.now).reverse := by
  obtain ⟨since, put, before, rfl, hput, -⟩ := h
  rw [List.mem_reverse, List.map_append, List.map_cons, ← hput.2]
  exact List.mem_append_right _ (List.mem_cons_self ..)

variable [LawfulBEq κ]

theorem touchedSince_of_not_touched (h : e.touched? ≠ some key) :
    touchedSince (e :: past) key = e.touched?.toList ++ touchedSince past key := by
  unfold touchedSince
  rw [List.takeWhile_cons_of_pos (by simpa using h)]
  cases htouched : e.touched? <;> simp [htouched]

/-- A key with a later last touch was touched since. -/
theorem mem_touchedSince {k : κ} (h : lastTouch past key < lastTouch past k) :
    k ∈ touchedSince past key := by
  induction past with
  | nil => exact absurd h (Nat.lt_irrefl 0)
  | cons e past ih =>
    by_cases hkey : e.touched? = some key
    · -- no touch is later than the one just made
      rw [lastTouch_of_touched hkey] at h
      have := lastTouch_le (e :: past) k
      rw [List.length_cons] at this
      omega
    · rw [touchedSince_of_not_touched hkey, List.mem_append]
      by_cases hk : e.touched? = some k
      · left
        simp [hk]
      · right
        rw [lastTouch_of_not_touched hkey, lastTouch_of_not_touched hk] at h
        exact ih h

end Past

/-! ## §2. What one operation keeps. -/

section Entries

variable [LawfulBEq κ] {c : Cache κ α} {now : Time} {key : κ} {entry : Entry α}

theorem mem_erase_iff {k : κ} {x : κ × Entry α} :
    x ∈ (c.erase k).entries ↔ x ∈ c.entries ∧ x.1 ≠ k := by
  unfold erase
  rw [List.mem_filter]
  simp

/-- Of distinct keys each has one entry. -/
theorem find?_of_mem (hdistinct : c.keys.Nodup) (hmem : (key, entry) ∈ c.entries) :
    c.find? key = some entry := by
  have hsome : (c.find? key).isSome :=
    (c.find?_isSome_iff key).mpr (List.mem_map_of_mem (f := Prod.fst) hmem)
  obtain ⟨e, he⟩ := Option.isSome_iff_exists.mp hsome
  have hsame : (key, e) = (key, entry) :=
    List.inj_on_of_nodup_map hdistinct (mem_of_find? he) hmem rfl
  obtain rfl : e = entry := (Prod.mk.inj hsame).2
  exact he

/-- Storing replaces the entry of its key. -/
theorem mem_set_cases {k : κ} {value : α} {mtime : Option Time} {x : κ × Entry α}
    (h : x ∈ (c.set now k value mtime).entries) :
    x = (k, ⟨value, now, mtime⟩) ∨ x ∈ c.entries ∧ x.1 ≠ k := by
  by_cases hknown : k ∈ c.keys
  · rw [entries_set_of_mem _ _ _ _ _ hknown, List.mem_append, List.mem_singleton] at h
    exact h.symm.imp_right mem_erase_iff.mp
  · rw [entries_set_of_not_mem _ _ _ _ _ hknown, List.mem_append, List.mem_singleton] at h
    refine h.symm.imp_right fun hold => ?_
    have hmem : x ∈ c.entries := by
      split at hold
      · exact List.mem_of_mem_drop hold
      · exact hold
    refine ⟨hmem, ?_⟩
    rintro rfl
    exact hknown (List.mem_map_of_mem hmem)

theorem mem_set_self (c : Cache κ α) (now : Time) (key : κ) (value : α) (mtime : Option Time) :
    (key, ⟨value, now, mtime⟩) ∈ (c.set now key value mtime).entries := by
  by_cases hknown : key ∈ c.keys
  · rw [entries_set_of_mem _ _ _ _ _ hknown]
    exact List.mem_append_right _ (List.mem_singleton_self _)
  · rw [entries_set_of_not_mem _ _ _ _ _ hknown]
    exact List.mem_append_right _ (List.mem_singleton_self _)

/-- The entries of the other keys stay, but for the first one of a full cache. -/
theorem mem_set_of_ne (now : Time) {k : κ} (value : α) (mtime : Option Time) {x : κ × Entry α}
    (hmem : x ∈ c.entries) (hne : x.1 ≠ k) :
    x ∈ (c.set now k value mtime).entries
      ∨ k ∉ c.keys ∧ c.capacity ≤ c.keys.length ∧ c.keys.head? = some x.1 := by
  by_cases hknown : k ∈ c.keys
  · left
    rw [entries_set_of_mem _ _ _ _ _ hknown]
    exact List.mem_append_left _ (mem_erase_iff.mpr ⟨hmem, hne⟩)
  · rw [entries_set_of_not_mem _ _ _ _ _ hknown]
    by_cases hfull : c.capacity ≤ c.keys.length
    · rw [if_pos hfull]
      -- the first entry goes, every other one stays
      unfold keys
      cases hentries : c.entries with
      | nil => rw [hentries] at hmem; exact nomatch hmem
      | cons first rest =>
        rw [hentries] at hmem
        obtain rfl | hrest := List.mem_cons.mp hmem
        · exact .inr ⟨by simpa [keys, hentries] using hknown,
            by simpa [keys, hentries] using hfull, rfl⟩
        · exact .inl (List.mem_append_left _ hrest)
    · left
      rw [if_neg hfull]
      exact List.mem_append_left _ hmem

/-- **Nothing comes from nowhere.** After an operation an entry is either the one
just stored, or it was there before and the operation did not put an end to
it. -/
theorem mem_of_mem_apply {op : Op κ α} (hdistinct : c.keys.Nodup)
    (hdated : ∀ x ∈ c.entries, ageless now x.2 = false)
    (hmem : (key, entry) ∈ (op.apply c now).2.entries) :
    (op = .set key entry.value entry.mtime ∧ now = entry.storedAt)
      ∨ (key, entry) ∈ c.entries ∧ ¬ op.Ends key entry := by
  have hchange := apply_change c now op
  generalize (op.apply c now).1 = answer at *
  generalize (op.apply c now).2.entries = after at *
  cases hchange with
  | undated hquiet hx hage =>
    -- every age can be told, so no operation fails
    rw [hdated _ hx] at hage
    exact nomatch hage
  | unchanged hquiet hkeeps =>
    exact .inr ⟨hmem, hkeeps key entry (find?_of_mem hdistinct hmem)⟩
  | erased hquiet honly hwhy =>
    -- the operation ends entries of the dropped key only
    obtain ⟨hold, hne⟩ := mem_erase_iff.mp hmem
    exact .inr ⟨hold, fun hends => hne (honly key entry hends)⟩
  | promoted hfind hage =>
    right
    obtain hold | hfound := mem_promote hmem
    · exact ⟨hold, id⟩
    · obtain ⟨rfl, rfl⟩ := Prod.mk.inj hfound
      exact ⟨mem_of_find? hfind, id⟩
  | stored =>
    obtain hnew | ⟨hold, hne⟩ := mem_set_cases hmem
    · obtain ⟨rfl, rfl⟩ := Prod.mk.inj hnew
      exact .inl ⟨rfl, rfl⟩
    · exact .inr ⟨hold, fun hends => hne hends.symm⟩
  | cleaned => exact .inr ⟨(List.mem_filter.mp hmem).1, id⟩
  | cleared => exact nomatch hmem

/-- **Nothing is lost but for a reason.** An entry that is not too old stays
unless the operation puts an end to it, or it is the first one in a full cache
in which a new key is stored. -/
theorem mem_apply_or_evicted {op : Op κ α} (hdistinct : c.keys.Nodup)
    (hmem : (key, entry) ∈ c.entries) (hage : c.expired now entry = false)
    (hkeeps : ¬ op.Ends key entry) :
    (key, entry) ∈ (op.apply c now).2.entries
      ∨ ∃ k value mtime, op = .set k value mtime ∧ k ∉ c.keys ∧ c.capacity ≤ c.keys.length
          ∧ c.keys.head? = some key := by
  have hfind := find?_of_mem hdistinct hmem
  have hchange := apply_change c now op
  generalize (op.apply c now).1 = answer at *
  generalize (op.apply c now).2.entries = after at *
  cases hchange with
  | undated _ _ _ => exact .inl hmem
  | unchanged _ _ => exact .inl hmem
  | erased hquiet honly hwhy =>
    -- there is no reason to drop this entry, so another key was dropped
    refine .inl (mem_erase_iff.mpr ⟨hmem, ?_⟩)
    rintro rfl
    obtain hold | hends := hwhy entry hfind
    · rw [hage] at hold
      exact nomatch hold
    · exact hkeeps hends
  | promoted hfound hyoung =>
    rename_i k e
    left
    by_cases hkey : key = k
    · subst hkey
      obtain rfl : e = entry := Option.some.inj (hfound.symm.trans hfind)
      exact List.mem_append_right _ (List.mem_singleton_self _)
    · exact List.mem_append_left _ (mem_erase_iff.mpr ⟨hmem, hkey⟩)
  | stored =>
    rename_i k value mtime
    obtain hstays | ⟨hnew, hfull, hfirst⟩ :=
      mem_set_of_ne now value mtime hmem fun h => hkeeps h.symm
    · exact .inl hstays
    · exact .inr ⟨k, value, mtime, rfl, hnew, hfull, hfirst⟩
  | cleaned => exact .inl (List.mem_filter.mpr ⟨hmem, by simp [hage]⟩)
  | cleared => exact absurd trivial hkeeps

/-- A key is touched where it is stored or has an entry. -/
theorem mem_keys_of_touched {op : Op κ α}
    (h : op.touched? (op.apply c now).1 = some key) :
    (∃ value mtime, op = .set key value mtime) ∨ key ∈ c.keys := by
  have hchange := apply_change c now op
  generalize (op.apply c now).1 = answer at *
  generalize (op.apply c now).2.entries = after at hchange
  cases hchange with
  | undated hquiet _ _ => rw [hquiet] at h; exact nomatch h
  | unchanged hquiet _ => rw [hquiet] at h; exact nomatch h
  | erased hquiet _ _ => rw [hquiet] at h; exact nomatch h
  | promoted hfind _ =>
    obtain rfl := Option.some.inj h
    exact .inr ((c.find?_isSome_iff _).mp (by rw [hfind]; rfl))
  | stored =>
    obtain rfl := Option.some.inj h
    exact .inl ⟨_, _, rfl⟩
  | cleaned => exact nomatch h
  | cleared => exact nomatch h

end Entries

/-! ## §3. Answers. -/

section Answers

variable {c : Cache κ α} {now : Time} {key : κ}

omit [BEq κ] in
/-- An entry is young enough where its age is known and not too high. -/
theorem within_iff {e : Entry α} :
    Time.Within c.ttl e.storedAt now ↔ ageless now e = false ∧ c.expired now e = false := by
  unfold Time.Within ageless expired
  cases now.since e.storedAt with
  | none => simp
  | some age => simp

/-- A lookup finds the value of an entry that is young enough. -/
theorem get_found_iff {value : α} :
    ((Op.get key).apply c now).1 = .found (some value)
      ↔ ∃ e, c.find? key = some e ∧ Time.Within c.ttl e.storedAt now ∧ e.value = value := by
  cases hfind : c.find? key with
  | none => simp [Op.apply, Op.isUndated, Op.perform, isUndated, get, hfind]
  | some e =>
    simp only [Option.some.injEq, exists_eq_left', within_iff]
    cases hage : ageless now e <;> cases hold : c.expired now e <;>
      simp [Op.apply, Op.isUndated, Op.perform, isUndated, get, hfind, hage, hold]

/-- A key is there if it has an entry that is young enough. -/
theorem contains_held_iff :
    ((Op.contains key : Op κ α).apply c now).1 = .held true
      ↔ ∃ e, c.find? key = some e ∧ Time.Within c.ttl e.storedAt now := by
  cases hfind : c.find? key with
  | none => simp [Op.apply, Op.isUndated, Op.perform, isUndated, contains, hfind]
  | some e =>
    simp only [Option.some.injEq, exists_eq_left', within_iff]
    cases hage : ageless now e <;> cases hold : c.expired now e <;>
      simp [Op.apply, Op.isUndated, Op.perform, isUndated, contains, hfind, hage, hold]

/-- A key is valid if it has an entry that is young enough and not outdated. -/
theorem isValid_held_iff {mtime : Time} :
    ((Op.isValid key mtime : Op κ α).apply c now).1 = .held true
      ↔ ∃ e, c.find? key = some e ∧ Time.Within c.ttl e.storedAt now
          ∧ outdated mtime e = false := by
  cases hfind : c.find? key with
  | none => simp [Op.apply, Op.isUndated, Op.perform, isUndated, isValid, hfind]
  | some e =>
    simp only [Option.some.injEq, exists_eq_left', within_iff]
    cases hage : ageless now e <;> cases hold : c.expired now e <;> cases hnew : outdated mtime e <;>
      simp [Op.apply, Op.isUndated, Op.perform, isUndated, isValid, hfind, hage, hold, hnew]

end Answers

/-! ## §4. Runs. -/

variable [LawfulBEq κ]

/-- Every entry of the cache stands. -/
def Sound (r : Run κ α) : Prop :=
  ∀ key entry, (key, entry) ∈ r.cache.entries → Stands r.past key entry

/-- A key has no entry, and as many other keys were touched since its last touch
as the cache can hold. -/
def Crowded (r : Run κ α) (key : κ) : Prop :=
  key ∉ r.cache.keys ∧ ∃ others : List κ, others.Nodup ∧ others.length = r.cache.capacity
    ∧ others ⊆ touchedSince r.past key

/-- An entry that stands and is young enough at a later reading of the clock is
there, or its key is crowded out. -/
def Complete (r : Run κ α) : Prop :=
  ∀ key entry now, Stands r.past key entry → Time.Clock (r.readings ++ [now]) →
    Time.Within r.cache.ttl entry.storedAt now →
      (key, entry) ∈ r.cache.entries ∨ Crowded r key

section Step

variable {r : Run κ α} {call : Time × Op κ α}

omit [LawfulBEq κ] in
/-- What one more operation leaves standing. -/
theorem stands_step_iff {key : κ} {entry : Entry α} :
    Stands (r.step call).past key entry
      ↔ (call.2 = .set key entry.value entry.mtime ∧ call.1 = entry.storedAt)
        ∨ Stands r.past key entry ∧ ¬ call.2.Ends key entry :=
  stands_cons_iff

theorem touchedSince_step {key : κ} {touched? : Option κ}
    (htouched : call.2.touched? (call.2.apply r.cache call.1).1 = touched?)
    (hne : touched? ≠ some key) :
    touchedSince (r.step call).past key = touched?.toList ++ touchedSince r.past key := by
  subst htouched
  exact touchedSince_of_not_touched hne

omit [BEq κ] [LawfulBEq κ] in
/-- On a clock that does not go back, the age of every entry can be told. -/
theorem Sound.dated (h : Sound r) {now : Time} (hclock : Time.Clock (r.readings ++ [now])) :
    ∀ x ∈ r.cache.entries, ageless now x.2 = false := by
  intro x hx
  have hstored : x.2.storedAt ∈ r.readings := (h x.1 x.2 hx).storedAt_mem
  have hpair : Time.Clock [x.2.storedAt, now] :=
    hclock.sublist ((List.singleton_sublist.mpr hstored).append (List.Sublist.refl [now]))
  unfold ageless
  rw [Option.isNone_eq_false_iff]
  exact hpair.since_isSome

/-- **One more operation stores nothing that does not stand.** -/
theorem Sound.step (h : Sound r) (hordered : Ordered r)
    (hclock : Time.Clock (r.readings ++ [call.1])) : Sound (r.step call) := by
  intro key entry hmem
  rw [stands_step_iff]
  exact (mem_of_mem_apply hordered.distinct (h.dated hclock) hmem).imp_right
    fun ⟨hold, hkeeps⟩ => ⟨h key entry hold, hkeeps⟩

/-- A key that is crowded out stays so until it is stored again. -/
theorem Crowded.step {key : κ} (h : Crowded r key) (hordered : Ordered r)
    (hset : ∀ value mtime, call.2 ≠ .set key value mtime) : Crowded (r.step call) key := by
  obtain ⟨hgone, others, hnodup, hlength, hsub⟩ := h
  have hmoves := keys_apply r.cache call.1 call.2 hordered.room hordered.bounded
  have hquiet : call.2.touched? (call.2.apply r.cache call.1).1 ≠ some key := by
    intro htouched
    obtain ⟨value, mtime, hop⟩ | hmem := mem_keys_of_touched htouched
    · exact hset value mtime hop
    · exact hgone hmem
  refine ⟨?_, others, hnodup, hlength.trans (apply_frame _ _ _).1.symm, ?_⟩
  · intro hmem
    exact (hmoves.mem_or hmem).elim hgone hquiet
  · rw [touchedSince_step rfl hquiet]
    exact fun k hk => List.mem_append_right _ (hsub hk)

/-- A key that is given up for a new one in a full cache is crowded out: the keys
behind it and the new one were all touched after it. -/
theorem crowded_of_evicted {key k : κ} {now : Time} {value : α} {mtime : Option Time}
    (hordered : Ordered r) (hnew : k ∉ r.cache.keys)
    (hfull : r.cache.capacity ≤ r.cache.keys.length) (hfirst : r.cache.keys.head? = some key) :
    Crowded (r.step (now, .set k value mtime)) key := by
  have hbounded := hordered.bounded
  obtain ⟨oldest, rest, hkeys, holder, hafter⟩ :=
    hordered.keys_set_of_full now value mtime hnew (by omega)
  rw [hkeys] at hfirst
  obtain rfl := Option.some.inj hfirst
  have hdistinct := (hordered.step (now, .set k value mtime)).distinct
  have hstep : (r.step (now, .set k value mtime)).cache.keys = rest ++ [k] := hafter
  have hne : k ≠ oldest := by
    rintro rfl
    exact hnew (hkeys ▸ List.mem_cons_self ..)
  have hgone : oldest ∉ rest := by
    have hnodup := hordered.distinct
    rw [hkeys] at hnodup
    exact (List.nodup_cons.mp hnodup).1
  refine ⟨?_, rest ++ [k], hstep ▸ hdistinct, ?_, ?_⟩
  · rw [hstep, List.mem_append, List.mem_singleton]
    rintro (hrest | rfl)
    · exact hgone hrest
    · exact hne rfl
  · have hcap : (r.step (now, .set k value mtime)).cache.capacity = r.cache.capacity :=
      (apply_frame _ _ _).1
    rw [hcap, List.length_append, List.length_singleton]
    rw [hkeys, List.length_cons] at hfull hbounded
    omega
  · have htouched : (Op.set k value mtime).touched?
        ((Op.set k value mtime).apply r.cache now).1 = some k := rfl
    rw [touchedSince_step htouched (by simpa using hne)]
    -- those that stay were touched after the first key, and the new one just now
    intro o ho
    obtain hrest | hk := List.mem_append.mp ho
    · exact List.mem_append_right _ (mem_touchedSince (holder o hrest))
    · exact List.mem_append_left _ hk

/-- **One more operation loses nothing that is still to be found.** -/
theorem Complete.step (h : Complete r) (hordered : Ordered r) : Complete (r.step call) := by
  intro key entry now hstands hclock hwithin
  obtain ⟨at_, op⟩ := call
  have httl : (r.step (at_, op)).cache.ttl = r.cache.ttl := (apply_frame _ _ _).2
  rw [httl] at hwithin
  rw [readings_step, List.append_assoc] at hclock
  obtain ⟨hop, hnow⟩ | ⟨hstands, hkeeps⟩ := stands_step_iff.mp hstands
  · -- the entry was stored just now
    left
    obtain rfl : op = .set key entry.value entry.mtime := hop
    obtain rfl : at_ = entry.storedAt := hnow
    exact mem_set_self r.cache entry.storedAt key entry.value entry.mtime
  · have hbefore : Time.Clock (r.readings ++ [now]) :=
      hclock.sublist ((List.Sublist.refl _).append (List.sublist_append_right _ _))
    obtain hmem | hcrowded := h key entry now hstands hbefore hwithin
    · -- it was young enough when the operation took place
      have hthree : Time.Clock [entry.storedAt, at_, now] :=
        hclock.sublist ((List.singleton_sublist.mpr hstands.storedAt_mem).append
          (List.Sublist.refl _))
      have hage := (within_iff.mp (hthree.within_of_later hwithin)).2
      obtain hstays | ⟨k, value, mtime, rfl, hnew, hfull, hfirst⟩ :=
        mem_apply_or_evicted hordered.distinct hmem hage hkeeps
      · exact .inl hstays
      · exact .inr (crowded_of_evicted hordered hnew hfull hfirst)
    · -- to store the key again would have put an end to the entry
      right
      refine hcrowded.step hordered ?_
      rintro value mtime rfl
      exact hkeeps rfl

end Step

/-- **What the past says of every run.** -/
theorem sound_and_complete {c : Cache κ α} (hpos : 0 < c.capacity) (hempty : c.entries = [])
    (calls : List (Time × Op κ α)) :
    Ordered (c.play calls) ∧ (Time.Clock (c.play calls).readings → Sound (c.play calls))
      ∧ Complete (c.play calls) := by
  refine play_induction (P := fun r => Ordered r ∧ (Time.Clock r.readings → Sound r) ∧ Complete r)
    ⟨Ordered.play hpos hempty [], ?_, ?_⟩ ?_ calls
  · -- at the start there is neither an entry nor a past
    intro hclock key entry hmem
    rw [hempty] at hmem
    exact nomatch hmem
  · rintro key entry now ⟨since, put, before, hpast, -, -⟩
    exact absurd hpast.symm (by simp)
  · rintro r call ⟨hordered, hsound, hcomplete⟩
    refine ⟨hordered.step call, ?_, hcomplete.step hordered⟩
    intro hclock
    rw [readings_step] at hclock
    exact (hsound (hclock.sublist (List.sublist_append_left _ _))).step hordered hclock

/-- A key that fewer others than the capacity were touched after is not crowded
out. -/
theorem not_crowded {r : Run κ α} {key : κ}
    (h : (touchedSince r.past key).eraseDups.length < r.cache.capacity) : ¬ Crowded r key := by
  rintro ⟨-, others, hnodup, hlength, hsub⟩
  -- distinct keys among those touched are no more than those are
  have hsub' : others ⊆ (touchedSince r.past key).eraseDups :=
    fun k hk => List.mem_eraseDups.mpr (hsub hk)
  have hle := (List.subperm_of_subset hnodup hsub').length_le
  omega

/-- **Lookups mean what the past says**, on every clock that does not go back.
What is found is the entry that stands, and it is young enough; a valid one is
not outdated either.  An entry that stands and is young enough is found if fewer
other keys than the capacity were touched since its key was. -/
theorem lookups_follow_past (capacity : Int) (hcapacity : 1 ≤ capacity) (ttl : Time) :
    ∃ start : Cache κ α, make capacity ttl = .ok start ∧
      ∀ (calls : List (Time × Op κ α)) (now : Time), Time.Clock (calls.map Prod.fst ++ [now]) →
        let run := start.play calls
        ∀ key : κ,
          (∀ value, ((Op.get key).apply run.cache now).1 = .found (some value) →
            ∃ entry, Stands run.past key entry ∧ Time.Within ttl entry.storedAt now
              ∧ entry.value = value)
          ∧ (∀ mtime, ((Op.isValid key mtime).apply run.cache now).1 = .held true →
            ∃ entry, Stands run.past key entry ∧ Time.Within ttl entry.storedAt now
              ∧ ∀ stored, entry.mtime = some stored → stored.before mtime = false)
          ∧ (((Op.contains key).apply run.cache now).1 = .held true →
            ∃ entry, Stands run.past key entry ∧ Time.Within ttl entry.storedAt now)
          ∧ ∀ entry, Stands run.past key entry → Time.Within ttl entry.storedAt now →
            ((touchedSince run.past key).eraseDups.length : Int) < capacity →
              ((Op.get key).apply run.cache now).1 = .found (some entry.value)
              ∧ ((Op.contains key).apply run.cache now).1 = .held true := by
  obtain ⟨start, hmake, hcap, httl, hempty⟩ := exists_make (κ := κ) (α := α) hcapacity ttl
  refine ⟨start, hmake, ?_⟩
  intro calls now hclock run key
  obtain ⟨hordered, hsound, hcomplete⟩ := sound_and_complete (c := start) (by omega) hempty calls
  have hholds : (run.cache.capacity : Int) = capacity := by
    rw [(play_frame start calls).1]
    exact hcap
  have hlives : run.cache.ttl = ttl := (play_frame start calls).2.trans httl
  rw [← readings_play start calls] at hclock
  have hstands : ∀ entry, run.cache.find? key = some entry → Stands run.past key entry :=
    fun entry hfind => hsound (hclock.sublist (List.sublist_append_left _ _)) key entry
      (mem_of_find? hfind)
  refine ⟨?_, ?_, ?_, ?_⟩
  · intro value hfound
    obtain ⟨entry, hfind, hwithin, hvalue⟩ := get_found_iff.mp hfound
    exact ⟨entry, hstands entry hfind, hlives ▸ hwithin, hvalue⟩
  · intro mtime hheld
    obtain ⟨entry, hfind, hwithin, hnew⟩ := isValid_held_iff.mp hheld
    refine ⟨entry, hstands entry hfind, hlives ▸ hwithin, ?_⟩
    intro stored hstored
    unfold outdated at hnew
    rwa [hstored] at hnew
  · intro hheld
    obtain ⟨entry, hfind, hwithin⟩ := contains_held_iff.mp hheld
    exact ⟨entry, hstands entry hfind, hlives ▸ hwithin⟩
  · intro entry hstanding hwithin hfew
    rw [← hlives] at hwithin
    -- too few keys were touched since for the entry to have been crowded out
    have hmem : (key, entry) ∈ run.cache.entries :=
      (hcomplete key entry now hstanding hclock hwithin).resolve_right
        (not_crowded (r := run) (by omega))
    have hfind := find?_of_mem hordered.distinct hmem
    exact ⟨get_found_iff.mpr ⟨entry, hfind, hwithin, rfl⟩,
      contains_held_iff.mpr ⟨entry, hfind, hwithin⟩⟩

/-- Three keys for a cache that holds two, on a clock with readings of both
kinds. -/
def threeKeys : List (Time × Op String Nat) :=
  [(.whole 0, .set "a" 1 (some (.whole 7))), (.real (.finite false 5 (-1)), .set "b" 2 none),
    (.whole 4, .get "a"), (.whole 5, .isValid "a" (.whole 7)), (.whole 6, .set "c" 3 none)]

/-- `a` was looked up after `b` was stored, so it is still found when `c` has taken
the place of `b`. -/
theorem lookups_follow_past_three_keys :
    ∃ start : Cache String Nat, make 2 (.whole 10) = .ok start
      ∧ ((Op.get "b").apply (start.play threeKeys).cache (.whole 9)).1 = .found none
      ∧ ((Op.get "a").apply (start.play threeKeys).cache (.whole 9)).1 = .found (some 1) := by
  obtain ⟨start, hmake, hall⟩ :=
    lookups_follow_past (κ := String) (α := Nat) 2 (by decide) (.whole 10)
  obtain rfl : empty 2 (.whole 10) = start := Except.ok.inj hmake
  have hclock : Time.Clock (threeKeys.map Prod.fst ++ [.whole 9]) := by
    refine ⟨by decide +kernel, by decide +kernel, .inr ?_⟩
    rintro t ht n rfl
    simp only [threeKeys, List.map_cons, List.map_nil, List.cons_append, List.nil_append,
      List.mem_cons, Time.whole.injEq, reduceCtorEq, List.not_mem_nil, or_false, false_or] at ht
    omega
  obtain ⟨-, -, -, hfinds⟩ := hall threeKeys (.whole 9) hclock "a"
  have hstands : Stands ((empty 2 (.whole 10)).play threeKeys).past "a"
      ⟨1, .whole 0, some (.whole 7)⟩ := by
    refine ⟨((empty 2 (.whole 10)).play threeKeys).past.take 4,
      ⟨.whole 0, .set "a" 1 (some (.whole 7)), .done⟩, [], by decide +kernel, ⟨rfl, rfl⟩, ?_⟩
    simp [play, threeKeys, Run.step, Op.Ends, outdated, Time.before]
  exact ⟨_, hmake, by decide +kernel,
    (hfinds _ hstands ⟨.whole 9, rfl, by decide⟩ (by decide +kernel)).1⟩

end Offside.Cache
