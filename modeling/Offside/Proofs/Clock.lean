/-
  Offside.Proofs.Clock
  ────────────────────
  Clocks that do not go back, and how long ago something was.

  A moment has a place on a line (`Time.rank`), and of two moments the one is
  before the other where its place is (`before_iff`).  On a clock that does not
  go back (`Clock`), the time since a moment only grows (`Clock.since_mono`), so
  what is recent enough at one reading was so at every reading before
  (`Clock.within_of_later`).
-/
import Offside.Proofs.Rounding

namespace Offside.Time

/-! ## §1. The place of a moment. -/

/-- The place of a time on a line that has two ends; what is no number has
none. -/
def rank : Time → Option (WithBot (WithTop ℚ))
  | .whole n => some (((n : ℚ) : WithTop ℚ) : WithBot (WithTop ℚ))
  | .real x => x.rank

theorem rank_eq_none_iff {t : Time} : t.rank = none ↔ t = .real .nan := by
  match t with
  | .whole n => simp [rank]
  | .real (.finite ..) => simp [rank, Binary64.rank]
  | .real (.infinite true) => simp [rank, Binary64.rank]
  | .real (.infinite false) => simp [rank, Binary64.rank]
  | .real .nan => simp [rank, Binary64.rank]

/-- A time is before another one where its place is. -/
theorem before_iff {a b : Time} :
    a.before b = true ↔ ∃ p q, a.rank = some p ∧ b.rank = some q ∧ p < q := by
  have hcoe : ∀ p q : ℚ,
      ((p : WithTop ℚ) : WithBot (WithTop ℚ)) < ((q : WithTop ℚ) : WithBot (WithTop ℚ)) ↔ p < q :=
    fun p q => by rw [WithBot.coe_lt_coe, WithTop.coe_lt_coe]
  have htop : ∀ p : ℚ, ((p : WithTop ℚ) : WithBot (WithTop ℚ)) < ⊤ :=
    fun p => WithBot.coe_lt_coe.mpr (WithTop.coe_lt_top p)
  match a, b with
  -- what is no number is before nothing, and nothing is before it
  | .real .nan, _ => simp [before, rank, Binary64.rank]
  | .whole _, .real .nan => simp [before, rank, Binary64.rank]
  | .real (.finite ..), .real .nan => simp [before, rank, Binary64.rank]
  | .real (.infinite _), .real .nan => simp [before, rank, Binary64.rank]
  -- the ends of the line, among themselves and beside a number
  | .real (.infinite s), .real (.infinite s') =>
    cases s <;> cases s' <;> simp [before, rank, Binary64.rank]
  | .real (.infinite s), .whole n => cases s <;> simp [before, rank, Binary64.rank]
  | .real (.infinite s), .real (.finite ..) => cases s <;> simp [before, rank, Binary64.rank]
  | .whole n, .real (.infinite s) => cases s <;> simp [before, rank, Binary64.rank, htop]
  | .real (.finite ..), .real (.infinite s) =>
    cases s <;> simp [before, rank, Binary64.rank, htop]
  -- numbers of either kind are compared by their values
  | .whole a, .whole b => simp [before, rank, hcoe]
  | .whole a, .real (.finite ..) => simp [before, rank, Binary64.rank, hcoe]
  | .real (.finite ..), .whole b => simp [before, rank, Binary64.rank, hcoe]
  | .real (.finite ..), .real (.finite ..) => simp [before, rank, Binary64.rank, hcoe]

/-- A span that is not exceeded by a time is not exceeded by a lower one. -/
theorem before_eq_false_of_rank_le {span a b : Time} {p q : WithBot (WithTop ℚ)}
    (ha : a.rank = some p) (hb : b.rank = some q) (hle : p ≤ q) (h : span.before b = false) :
    span.before a = false := by
  rw [Bool.eq_false_iff, ne_eq, before_iff] at h ⊢
  rintro ⟨r, p', hr, hp', hlt⟩
  obtain rfl : p = p' := Option.some.inj (ha.symm.trans hp')
  exact h ⟨r, q, hr, hb, hlt.trans_le hle⟩

/-! ## §2. Whole numbers in double precision. -/

theorem natAbs_lt_tooLarge {n : Int} (hn : n.natAbs < 2 ^ 53) :
    ((n.natAbs : Nat) : ℚ) < Binary64.tooLarge := by
  have hone : (1 : ℚ) ≤ 2 ^ Binary64.maxExponent := one_le_zpow₀ (by norm_num) (by decide)
  calc ((n.natAbs : Nat) : ℚ) < 2 ^ 53 := by exact_mod_cast hn
    _ ≤ Binary64.tooLarge := le_mul_of_one_le_right (by norm_num) hone

/-- Whole numbers of at most 53 binary digits are not rounded. -/
theorem ofInt?_eq_finite {n : Int} (hn : n.natAbs < 2 ^ 53) :
    ∃ negative m e, Binary64.ofInt? n = some (.finite negative m e)
      ∧ (Binary64.finite negative m e).value = n := by
  have hsize := Binary64.magnitude_whole hn
  have hround := Binary64.ofRatio_eq (decide (n < 0)) n.natAbs Nat.one_pos
  rw [hsize] at hround
  obtain ⟨hbig, -⟩ | ⟨-, m, e, hfin, hval⟩ := hround
  · exact absurd hbig (not_le.mpr (natAbs_lt_tooLarge hn))
  refine ⟨decide (n < 0), m, e, ?_, ?_⟩
  · unfold Binary64.ofInt?
    rw [hfin]
  · rw [Binary64.value_finite, hval, Nat.cast_natAbs, Int.cast_abs]
    by_cases hneg : n < 0
    · rw [if_pos (decide_eq_true hneg), abs_of_neg (by exact_mod_cast hneg), neg_neg]
    · rw [if_neg (by simpa using hneg), abs_of_nonneg (by exact_mod_cast not_lt.mp hneg)]

theorem clamp_rounded_whole {n : Int} (hn : n.natAbs < 2 ^ 53) :
    some (Binary64.clamp (Binary64.rounded n)) = (Time.whole n).rank := by
  have hlt := natAbs_lt_tooLarge hn
  rw [Nat.cast_natAbs, Int.cast_abs, abs_lt] at hlt
  rw [Binary64.rounded_whole hn, Binary64.clamp_of_between hlt.1 hlt.2]
  rfl

/-- A time that double precision tells from its neighbours: any time of that
precision, and a whole one of at most 52 binary digits. -/
def Counted (t : Time) : Prop := ∀ n, t = .whole n → n.natAbs < 2 ^ 52

/-- Such a time has a number of double precision in its place. -/
theorem Counted.real? {t : Time} (h : Counted t) : ∃ x, t.real? = some x ∧ x.rank = t.rank := by
  cases t with
  | real x => exact ⟨x, rfl, rfl⟩
  | whole n =>
    have hn : n.natAbs < 2 ^ 53 := by have := h n rfl; omega
    obtain ⟨negative, m, e, hof, hval⟩ := ofInt?_eq_finite hn
    refine ⟨_, hof, ?_⟩
    simp only [rank, Binary64.rank, hval]

/-- The time between two such moments has the place of their difference in
double precision, whether or not it was computed there. -/
theorem rank_since_of_counted {a b : Time} (ha : Counted a) (hb : Counted b) {x y : Binary64}
    (hx : a.real? = some x) (hy : b.real? = some y) :
    ∃ age, a.since b = some age ∧ age.rank = (x.sub y).rank := by
  match a, b with
  | .real _, .real _ | .real _, .whole _ | .whole _, .real _ =>
    refine ⟨.real (x.sub y), ?_, rfl⟩
    simp [since, hx, hy]
  | .whole m, .whole n =>
    have hm := ha m rfl
    have hn := hb n rfl
    obtain ⟨s, k, e, hof, hval⟩ := ofInt?_eq_finite (n := m) (by omega)
    obtain ⟨s', k', e', hof', hval'⟩ := ofInt?_eq_finite (n := n) (by omega)
    obtain rfl : .finite s k e = x := Option.some.inj (hof.symm.trans hx)
    obtain rfl : .finite s' k' e' = y := Option.some.inj (hof'.symm.trans hy)
    refine ⟨.whole (m - n), rfl, ?_⟩
    -- the difference of the two has one digit more, so it is not rounded
    have hsub : (m - n).natAbs < 2 ^ 53 := by omega
    rw [Binary64.rank_finite_sub, hval, hval', ← Int.cast_sub, clamp_rounded_whole hsub]

/-! ## §3. Clocks. -/

/-- The readings of a clock that does not go back, in their order.  They are
numbers, and either all of them are whole or double precision tells the whole
ones among them apart; a larger one would be rounded before it is subtracted
from a time of that precision, but not before it is subtracted from a whole
one. -/
structure Clock (readings : List Time) : Prop where
  numbers : ∀ t ∈ readings, t ≠ .real .nan
  forward : readings.Pairwise fun earlier later => later.before earlier = false
  uniform : (∀ t ∈ readings, ∃ n, t = .whole n) ∨ ∀ t ∈ readings, Counted t

/-- Something is recent enough: no more than a span has passed since. -/
def Within (span past now : Time) : Prop :=
  ∃ age, now.since past = some age ∧ span.before age = false

/-- A moment that is not after another one has no later place. -/
theorem rank_le_of_before_eq_false {a b : Time} (ha : a ≠ .real .nan) (hb : b ≠ .real .nan)
    (h : b.before a = false) : ∃ p q, a.rank = some p ∧ b.rank = some q ∧ p ≤ q := by
  obtain ⟨p, hp⟩ := Option.ne_none_iff_exists'.mp (mt rank_eq_none_iff.mp ha)
  obtain ⟨q, hq⟩ := Option.ne_none_iff_exists'.mp (mt rank_eq_none_iff.mp hb)
  refine ⟨p, q, hp, hq, ?_⟩
  by_contra hlt
  have hbefore : b.before a = true := before_iff.mpr ⟨q, p, hq, hp, not_le.mp hlt⟩
  rw [h] at hbefore
  exact absurd hbefore (by decide)

/-- **The time since a moment only grows.** -/
theorem Clock.since_mono {s t u : Time} (hclock : Clock [s, t, u]) :
    ∃ young old, t.since s = some young ∧ u.since s = some old
      ∧ ∀ span : Time, span.before old = false → span.before young = false := by
  have hforward := hclock.forward
  simp only [List.pairwise_cons, List.mem_cons, List.not_mem_nil, or_false, forall_eq_or_imp,
    forall_eq, List.Pairwise.nil, and_true, IsEmpty.forall_iff, implies_true] at hforward
  obtain ⟨⟨hst, -⟩, htu⟩ := hforward
  obtain ⟨p, q, hp, hq, hpq⟩ := rank_le_of_before_eq_false
    (hclock.numbers s (by simp)) (hclock.numbers t (by simp)) hst
  obtain ⟨q', r, hq', hr, hqr⟩ := rank_le_of_before_eq_false
    (hclock.numbers t (by simp)) (hclock.numbers u (by simp)) htu
  obtain rfl : q = q' := Option.some.inj (hq.symm.trans hq')
  obtain hwhole | hcounted := hclock.uniform
  · -- whole readings are subtracted exactly
    obtain ⟨a, rfl⟩ := hwhole s (by simp)
    obtain ⟨b, rfl⟩ := hwhole t (by simp)
    obtain ⟨c, rfl⟩ := hwhole u (by simp)
    have hbc : b ≤ c := by simpa [before] using htu
    refine ⟨.whole (b - a), .whole (c - a), rfl, rfl, ?_⟩
    intro span
    apply before_eq_false_of_rank_le rfl rfl
    apply WithBot.coe_le_coe.mpr
    apply WithTop.coe_le_coe.mpr
    exact_mod_cast Int.sub_le_sub_right hbc a
  · -- the others as numbers of double precision
    obtain ⟨x, hx, hxr⟩ := (hcounted s (by simp)).real?
    obtain ⟨y, hy, hyr⟩ := (hcounted t (by simp)).real?
    obtain ⟨z, hz, hzr⟩ := (hcounted u (by simp)).real?
    obtain ⟨young, hyoung, hyoungr⟩ :=
      rank_since_of_counted (hcounted t (by simp)) (hcounted s (by simp)) hy hx
    obtain ⟨old, hold, holdr⟩ :=
      rank_since_of_counted (hcounted u (by simp)) (hcounted s (by simp)) hz hx
    refine ⟨young, old, hyoung, hold, ?_⟩
    intro span hspan
    obtain hnone | ⟨i, j, hi, hj, hij⟩ :=
      Binary64.rank_sub_mono (hxr.trans hp) (hyr.trans hq) (hzr.trans hr) hpq hqr
    · -- infinity from itself: nothing is before what is no number
      rw [Bool.eq_false_iff, ne_eq, before_iff]
      rintro ⟨-, k, -, hk, -⟩
      rw [hyoungr, hnone] at hk
      exact nomatch hk
    · exact before_eq_false_of_rank_le (hyoungr.trans hi) (holdr.trans hj) hij hspan

theorem Clock.sublist {readings readings' : List Time} (h : Clock readings)
    (hsub : readings'.Sublist readings) : Clock readings' where
  numbers t ht := h.numbers t (hsub.subset ht)
  forward := h.forward.sublist hsub
  uniform := h.uniform.imp (fun hw t ht => hw t (hsub.subset ht))
    fun hc t ht => hc t (hsub.subset ht)

theorem not_before_self (t : Time) : t.before t = false := by
  rw [Bool.eq_false_iff, ne_eq, before_iff]
  rintro ⟨p, q, hp, hq, hlt⟩
  obtain rfl : p = q := Option.some.inj (hp.symm.trans hq)
  exact lt_irrefl p hlt

/-- A clock may show the same time again. -/
theorem Clock.again {readings rest : List Time} {t : Time} (h : Clock (readings ++ t :: rest)) :
    Clock (readings ++ t :: t :: rest) := by
  have hmem : ∀ u ∈ readings ++ t :: t :: rest, u ∈ readings ++ t :: rest := by
    intro u hu
    simpa using hu
  refine ⟨fun u hu => h.numbers u (hmem u hu), ?_, ?_⟩
  · have hforward := h.forward
    rw [List.pairwise_append, List.pairwise_cons] at hforward ⊢
    obtain ⟨hearlier, ⟨hnext, hrest⟩, hacross⟩ := hforward
    refine ⟨hearlier, ⟨?_, List.pairwise_cons.mpr ⟨hnext, hrest⟩⟩, ?_⟩
    · exact List.forall_mem_cons.mpr ⟨not_before_self t, hnext⟩
    · exact fun u hu v hv => hacross u hu v (by simpa using hv)
  · exact h.uniform.imp (fun hw u hu => hw u (hmem u hu)) fun hc u hu => hc u (hmem u hu)

/-- What is recent enough at one reading was so at every reading before. -/
theorem Clock.within_of_later {span s t u : Time} (hclock : Clock [s, t, u])
    (h : Within span s u) : Within span s t := by
  obtain ⟨young, old, hyoung, hold, hgrows⟩ := hclock.since_mono
  obtain ⟨age, hage, hspan⟩ := h
  obtain rfl : old = age := Option.some.inj (hold.symm.trans hage)
  exact ⟨young, hyoung, hgrows span hspan⟩

/-- The time between two readings of a clock can be told. -/
theorem Clock.since_isSome {s t : Time} (hclock : Clock [s, t]) : (t.since s).isSome := by
  obtain hwhole | hcounted := hclock.uniform
  · obtain ⟨a, rfl⟩ := hwhole s (by simp)
    obtain ⟨b, rfl⟩ := hwhole t (by simp)
    rfl
  · obtain ⟨x, hx, -⟩ := (hcounted s (by simp)).real?
    obtain ⟨y, hy, -⟩ := (hcounted t (by simp)).real?
    obtain ⟨age, hage, -⟩ :=
      rank_since_of_counted (hcounted t (by simp)) (hcounted s (by simp)) hy hx
    rw [hage]
    rfl

end Offside.Time
