/-
  Offside.Proofs.CacheOrder
  ─────────────────────────
  The order in which a cache lists its keys.

  Whatever is done with a cache and whatever its clock shows, the keys are in the
  order of their last touch (`Ordered`, kept by `Ordered.step`).  An operation
  that touches no key leaves those that stay in their order; one that touches a
  key moves it to the end (`Moves`).  So the key that a full cache gives up for a
  new one is the one whose last touch is the oldest.
-/
import Offside.Proofs.CacheRun

namespace Offside.Cache

variable {κ α : Type} [BEq κ]

/-! ## §1. Keys. -/

section Keys

variable (c : Cache κ α) (now : Time) (key : κ)

theorem keys_erase : (c.erase key).keys = c.keys.filter fun k => !(k == key) := by
  unfold keys erase
  rw [List.filter_map]
  rfl

theorem keys_promote (e : Entry α) :
    (c.promote key e).keys = (c.keys.filter fun k => !(k == key)) ++ [key] := by
  rw [← keys_erase]
  exact List.map_append

variable [LawfulBEq κ]

theorem find?_isSome_iff : (c.find? key).isSome ↔ key ∈ c.keys := by
  unfold find? keys
  rw [Option.isSome_map, List.find?_isSome, List.mem_map]
  simp only [beq_iff_eq]

/-- Storing a known key replaces its entry, at the end. -/
theorem entries_set_of_mem (value : α) (mtime : Option Time) (h : key ∈ c.keys) :
    (c.set now key value mtime).entries = (c.erase key).entries ++ [(key, ⟨value, now, mtime⟩)] := by
  have hsome := (c.find?_isSome_iff key).mpr h
  unfold set
  simp only [if_pos hsome]
  rfl

/-- Storing a new key adds an entry at the end; a full cache gives up its first
one. -/
theorem entries_set_of_not_mem (value : α) (mtime : Option Time) (h : key ∉ c.keys) :
    (c.set now key value mtime).entries
      = (if c.capacity ≤ c.keys.length then c.entries.drop 1 else c.entries)
          ++ [(key, ⟨value, now, mtime⟩)] := by
  have hnone : ¬ (c.find? key).isSome = true := mt (c.find?_isSome_iff key).mp h
  have hlength : c.keys.length = c.entries.length := List.length_map _
  unfold set
  simp only [if_neg hnone, hlength]
  split <;> rfl

theorem keys_set_of_mem (value : α) (mtime : Option Time) (h : key ∈ c.keys) :
    (c.set now key value mtime).keys = (c.keys.filter fun k => !(k == key)) ++ [key] := by
  rw [← keys_erase]
  unfold keys
  rw [entries_set_of_mem _ _ _ _ _ h, List.map_append]
  rfl

theorem keys_set_of_not_mem (value : α) (mtime : Option Time) (h : key ∉ c.keys) :
    (c.set now key value mtime).keys
      = (if c.capacity ≤ c.keys.length then c.keys.drop 1 else c.keys) ++ [key] := by
  have hkeys : (c.set now key value mtime).keys
      = (c.set now key value mtime).entries.map (·.1) := rfl
  rw [hkeys, entries_set_of_not_mem _ _ _ _ _ h]
  split <;> simp [keys]

end Keys

/-! ## §2. One operation. -/

/-- How the keys of a cache can change when some key is touched, or none is. -/
def Moves (capacity : Nat) (before after : List κ) : Option κ → Prop
  | none => after.Sublist before
  | some key => ∃ kept, after = kept ++ [key] ∧ kept.Sublist before ∧ key ∉ kept
      ∧ kept.length < capacity

omit [BEq κ] in
/-- Only the touched key can be new. -/
theorem Moves.mem_or {capacity : Nat} {before after : List κ} {touched? : Option κ}
    (h : Moves capacity before after touched?) {k : κ} (hk : k ∈ after) :
    k ∈ before ∨ touched? = some k := by
  cases touched? with
  | none => exact .inl (List.Sublist.subset h hk)
  | some key =>
    obtain ⟨kept, rfl, hsub, -, -⟩ := h
    obtain hold | hnew := List.mem_append.mp hk
    · exact .inl (hsub.subset hold)
    · exact .inr (congrArg some (List.mem_singleton.mp hnew).symm)

variable [LawfulBEq κ]

/-- A touched key that was there is taken out before it is put at the end, so
there is room for it. -/
theorem moves_of_mem {capacity : Nat} {before : List κ} {key : κ} (h : key ∈ before)
    (hbound : before.length ≤ capacity) :
    Moves capacity before ((before.filter fun k => !(k == key)) ++ [key]) (some key) := by
  refine ⟨_, rfl, List.filter_sublist, ?_, ?_⟩
  · simp
  · have hshorter : (before.filter fun k => !(k == key)).length < before.length :=
      List.length_filter_lt_length_iff_exists.mpr ⟨key, h, by simp⟩
    omega

/-- **One operation** moves the key that it touches to the end, and leaves the
order of the others. -/
theorem keys_apply (c : Cache κ α) (now : Time) (op : Op κ α) (hpos : 0 < c.capacity)
    (hbound : c.keys.length ≤ c.capacity) :
    Moves c.capacity c.keys (op.apply c now).2.keys (op.touched? (op.apply c now).1) := by
  have hchange := apply_change c now op
  have hkeys : (op.apply c now).2.keys = (op.apply c now).2.entries.map (·.1) := rfl
  rw [hkeys]
  generalize (op.apply c now).1 = answer at *
  generalize (op.apply c now).2.entries = after at *
  cases hchange with
  | undated hquiet hx hage =>
    rw [hquiet]
    exact List.Sublist.refl _
  | unchanged hquiet hkeeps =>
    rw [hquiet]
    exact List.Sublist.refl _
  | erased hquiet honly hwhy =>
    rw [hquiet]
    exact List.filter_sublist.map _
  | promoted hfind hage =>
    rename_i key e
    show Moves _ _ (c.promote key e).keys (some key)
    -- a key that is found was listed
    rw [keys_promote]
    have hmem : key ∈ c.keys := (c.find?_isSome_iff key).mp (by rw [hfind]; rfl)
    exact moves_of_mem hmem hbound
  | stored =>
    rename_i key value mtime
    show Moves _ _ (c.set now key value mtime).keys (some key)
    by_cases hmem : key ∈ c.keys
    · rw [keys_set_of_mem _ _ _ _ _ hmem]
      exact moves_of_mem hmem hbound
    · rw [keys_set_of_not_mem _ _ _ _ _ hmem]
      by_cases hfull : c.capacity ≤ c.keys.length
      · -- the first key makes room, as there is one in a full cache
        rw [if_pos hfull]
        refine ⟨_, rfl, List.drop_sublist 1 _, fun h => hmem (List.mem_of_mem_drop h), ?_⟩
        rw [List.length_drop]
        omega
      · rw [if_neg hfull]
        exact ⟨_, rfl, List.Sublist.refl _, hmem, by omega⟩
  | cleaned => exact List.filter_sublist.map _
  | cleared => exact List.nil_sublist _

/-! ## §3. Runs. -/

/-- Keys are in the order of their last touch, and no more than a number. -/
structure InOrder (capacity : Nat) (past : List (Event κ α)) (keys : List κ) : Prop where
  bounded : keys.length ≤ capacity
  touched : ∀ key ∈ keys, 0 < lastTouch past key
  ordered : keys.Pairwise fun a b => lastTouch past a < lastTouch past b

namespace InOrder

variable {capacity : Nat} {past : List (Event κ α)} {keys : List κ} {e : Event κ α}

/-- An event that touches nothing leaves the order of the keys that stay. -/
theorem quiet (h : InOrder capacity past keys) (hquiet : e.touched? = none) {after : List κ}
    (hsub : after.Sublist keys) : InOrder capacity (e :: past) after := by
  have hlast : ∀ key, lastTouch (e :: past) key = lastTouch past key := by
    intro key
    exact lastTouch_of_not_touched (by simp [hquiet]) past
  refine ⟨hsub.length_le.trans h.bounded, ?_, ?_⟩
  · intro key hmem
    rw [hlast]
    exact h.touched key (hsub.subset hmem)
  · simp only [hlast]
    exact h.ordered.sublist hsub

/-- A key that is touched belongs at the end. -/
theorem touch (h : InOrder capacity past keys) {key : κ} (hkey : e.touched? = some key)
    {kept : List κ} (hsub : kept.Sublist keys) (hnot : key ∉ kept) (hlength : kept.length < capacity) :
    InOrder capacity (e :: past) (kept ++ [key]) := by
  have hnew : lastTouch (e :: past) key = past.length + 1 := lastTouch_of_touched hkey past
  have hlast : ∀ k ∈ kept, lastTouch (e :: past) k = lastTouch past k := by
    intro k hk
    apply lastTouch_of_not_touched
    rw [hkey]
    rintro ⟨rfl⟩
    exact hnot hk
  refine ⟨?_, ?_, ?_⟩
  · rw [List.length_append, List.length_singleton]
    omega
  · intro k hmem
    rw [List.mem_append, List.mem_singleton] at hmem
    obtain hk | rfl := hmem
    · rw [hlast k hk]
      exact h.touched k (hsub.subset hk)
    · omega
  · rw [List.pairwise_append]
    refine ⟨?_, List.pairwise_singleton _ _, ?_⟩
    · exact (h.ordered.sublist hsub).imp_of_mem fun ha hb hlt => by rwa [hlast _ ha, hlast _ hb]
    · -- every touch before is older than the one just made
      intro k hk k' hk'
      rw [List.mem_singleton.mp hk', hlast k hk, hnew]
      exact Nat.lt_succ_of_le (lastTouch_le _ _)

end InOrder

/-- The keys of the cache are in order, and it has room for one at least. -/
structure Ordered (r : Run κ α) : Prop extends
    InOrder r.cache.capacity r.past r.cache.keys where
  room : 0 < r.cache.capacity

namespace Ordered

variable {r : Run κ α}

omit [LawfulBEq κ] in
/-- Keys that were touched at different times are different. -/
theorem distinct (h : Ordered r) : r.cache.keys.Nodup :=
  h.ordered.imp fun hlt heq => absurd hlt (by rw [heq]; exact Nat.lt_irrefl _)

/-- **One more operation keeps the order.** -/
theorem step (h : Ordered r) (call : Time × Op κ α) : Ordered (r.step call) := by
  have hcapacity : (r.step call).cache.capacity = r.cache.capacity :=
    (apply_frame r.cache call.1 call.2).1
  have hmoves := keys_apply r.cache call.1 call.2 h.room h.bounded
  refine ⟨?_, hcapacity ▸ h.room⟩
  rw [hcapacity]
  cases hkey : call.2.touched? (call.2.apply r.cache call.1).1 with
  | none =>
    rw [hkey] at hmoves
    refine h.toInOrder.quiet ?_ hmoves
    exact hkey
  | some key =>
    rw [hkey] at hmoves
    obtain ⟨kept, hafter, hsub, hnot, hlength⟩ := hmoves
    have hkeys : (r.step call).cache.keys = kept ++ [key] := hafter
    rw [hkeys]
    refine h.toInOrder.touch ?_ hsub hnot hlength
    exact hkey

theorem play {c : Cache κ α} (hpos : 0 < c.capacity) (hempty : c.entries = [])
    (calls : List (Time × Op κ α)) : Ordered (c.play calls) := by
  apply play_induction
  · have hkeys : c.keys = [] := by unfold keys; rw [hempty]; rfl
    exact ⟨⟨by simp [hkeys], by simp [hkeys], by simp [hkeys]⟩, hpos⟩
  · exact fun r call h => h.step call

end Ordered

/-! ## §4. What is given up. -/

/-- Storing a key gives up another one only where the key is new and the cache
is full. -/
theorem full_of_not_mem_keys_set {c : Cache κ α} {now : Time} {key k : κ} {value : α}
    {mtime : Option Time} (hmem : k ∈ c.keys) (hgone : k ∉ (c.set now key value mtime).keys) :
    key ∉ c.keys ∧ c.capacity ≤ c.keys.length := by
  by_cases hknown : key ∈ c.keys
  · rw [keys_set_of_mem _ _ _ _ _ hknown] at hgone
    by_cases heq : k = key
    · exact absurd (by simp [heq]) hgone
    · exact absurd (by simp [hmem, heq]) hgone
  · refine ⟨hknown, ?_⟩
    rw [keys_set_of_not_mem _ _ _ _ _ hknown] at hgone
    by_contra hroom
    rw [if_neg hroom] at hgone
    exact hgone (List.mem_append_left _ hmem)

/-- A full cache gives up the key whose last touch is the oldest for a new one. -/
theorem Ordered.keys_set_of_full {r : Run κ α} (h : Ordered r) (now : Time) {key : κ} (value : α)
    (mtime : Option Time) (hnew : key ∉ r.cache.keys)
    (hfull : r.cache.keys.length = r.cache.capacity) :
    ∃ oldest rest, r.cache.keys = oldest :: rest
      ∧ (∀ k ∈ rest, lastTouch r.past oldest < lastTouch r.past k)
      ∧ (r.cache.set now key value mtime).keys = rest ++ [key] := by
  have hroom := h.room
  have hordered := h.ordered
  have hset := keys_set_of_not_mem r.cache now key value mtime hnew
  rw [if_pos hfull.ge] at hset
  rw [hset]
  cases hkeys : r.cache.keys with
  | nil =>
    -- there is room for one key at least
    rw [hkeys] at hfull
    exact absurd hfull hroom.ne
  | cons oldest rest =>
    rw [hkeys] at hordered
    exact ⟨oldest, rest, rfl, (List.pairwise_cons.mp hordered).1, rfl⟩

/-- **The keys of a cache are in the order of their last touch**, whatever was
done with it and whatever its clock has shown.  They are distinct and no more
than the capacity; what touches no key leaves those that stay in their order;
and storing a key gives up another one only where the key is new and the cache
is full, and then the one whose last touch is the oldest. -/
theorem keys_in_order_of_last_touch (capacity : Int) (hcapacity : 1 ≤ capacity) (ttl : Time) :
    ∃ start : Cache κ α, make capacity ttl = .ok start ∧ ∀ calls : List (Time × Op κ α),
      let run := start.play calls
      run.cache.keys.Nodup
      ∧ (run.cache.keys.length : Int) ≤ capacity
      ∧ (∀ key ∈ run.cache.keys, 0 < lastTouch run.past key)
      ∧ (run.cache.keys.Pairwise fun a b => lastTouch run.past a < lastTouch run.past b)
      ∧ (∀ (now : Time) (op : Op κ α), op.touched? (op.apply run.cache now).1 = none →
          (op.apply run.cache now).2.keys.Sublist run.cache.keys)
      ∧ ∀ (now : Time) (key : κ) (value : α) (mtime : Option Time),
          (∀ k ∈ run.cache.keys, k ∉ (run.cache.set now key value mtime).keys →
            key ∉ run.cache.keys ∧ (run.cache.keys.length : Int) = capacity)
          ∧ (key ∉ run.cache.keys → (run.cache.keys.length : Int) = capacity →
              ∃ oldest rest, run.cache.keys = oldest :: rest
                ∧ (∀ k ∈ rest, lastTouch run.past oldest < lastTouch run.past k)
                ∧ (run.cache.set now key value mtime).keys = rest ++ [key]) := by
  obtain ⟨start, hmake, hcap, -, hempty⟩ := exists_make (κ := κ) (α := α) hcapacity ttl
  refine ⟨start, hmake, ?_⟩
  intro calls run
  have hordered : Ordered run := Ordered.play (by omega) hempty calls
  have hkept : (run.cache.capacity : Int) = capacity := by
    rw [(play_frame start calls).1]
    exact hcap
  have hbounded := hordered.bounded
  refine ⟨hordered.distinct, by omega, hordered.touched, hordered.ordered, ?_, ?_⟩
  · intro now op hquiet
    have hmoves := keys_apply run.cache now op hordered.room hbounded
    rwa [hquiet] at hmoves
  · intro now key value mtime
    constructor
    · intro k hmem hgone
      obtain ⟨hnew, hfull⟩ := full_of_not_mem_keys_set hmem hgone
      exact ⟨hnew, by omega⟩
    · intro hnew hfull
      exact hordered.keys_set_of_full now value mtime hnew (by omega)

/-- A lookup makes `b` the oldest of two keys, though `a` was stored first; so a
third key takes its place. -/
theorem keys_in_order_of_last_touch_full :
    ∃ start : Cache String Nat, make 2 (.whole 10) = .ok start
      ∧ ∃ run, run = start.play [(.whole 5, .set "a" 1 none), (.whole 3, .set "b" 2 none),
          (.whole 9, .get "a"), (.whole 7, .contains "b")]
      ∧ run.cache.keys = ["b", "a"]
      ∧ (run.cache.keys.Pairwise fun a b => lastTouch run.past a < lastTouch run.past b)
      ∧ (run.cache.set (.whole 8) "c" 3 none).keys = ["a", "c"] := by
  obtain ⟨start, hmake, hall⟩ :=
    keys_in_order_of_last_touch (κ := String) (α := Nat) 2 (by decide) (.whole 10)
  obtain rfl : empty 2 (.whole 10) = start := Except.ok.inj hmake
  obtain ⟨-, -, -, hordered, -, hset⟩ := hall [(.whole 5, .set "a" 1 none),
    (.whole 3, .set "b" 2 none), (.whole 9, .get "a"), (.whole 7, .contains "b")]
  refine ⟨_, hmake, _, rfl, by decide +kernel, hordered, ?_⟩
  obtain ⟨oldest, rest, hkeys, -, hafter⟩ :=
    (hset (.whole 8) "c" 3 none).2 (by decide +kernel) (by decide +kernel)
  have hlisted : ["b", "a"] = oldest :: rest := by
    rw [← hkeys]
    decide +kernel
  obtain ⟨rfl, rfl⟩ := List.cons.inj hlisted
  exact hafter

end Offside.Cache
