/-
  Offside.Proofs.Rounding
  ───────────────────────
  Rounding to double precision never turns an order around.

  A number of double precision is made from a fraction by cutting off a mantissa
  of 53 binary digits and rounding it.  `magnitude` is the result before it is
  found too large; it grows with the fraction (`magnitude_mono`), also where the
  exponent changes.  With the infinities at both ends, the order of all numbers
  is that of `rank`, and `rank_sub_mono` says that differences keep it.
-/
import Mathlib
import Offside.Time

namespace Offside.Binary64

/-! ## §1. Rounding a quotient. -/

section Quotient

variable {n d : Nat}

/-- Rounding moves a quotient by one half at most, and by one half only onto
an even number. -/
theorem roundDiv_near (hd : 0 < d) :
    2 * d * roundDiv n d ≤ 2 * n + d ∧ 2 * n ≤ 2 * d * roundDiv n d + d
      ∧ (2 * d * roundDiv n d = 2 * n + d ∨ 2 * n = 2 * d * roundDiv n d + d →
          roundDiv n d % 2 = 0) := by
  have hsplit := Nat.div_add_mod n d
  have hrest := Nat.mod_lt n hd
  have hnext : 2 * d * (n / d + 1) = 2 * (d * (n / d)) + 2 * d := by ring
  have hsame : 2 * d * (n / d) = 2 * (d * (n / d)) := by ring
  unfold roundDiv
  simp only [beq_iff_eq]
  -- below the middle of two whole numbers, above it, and on it to the even one
  split_ifs with hlow hhigh heven
  · rw [hsame]
    omega
  · rw [hnext]
    omega
  · rw [hsame]
    omega
  · rw [hnext]
    omega

/-- The same on the line of fractions. -/
theorem roundDiv_near_rat (hd : 0 < d) :
    (roundDiv n d : ℚ) ≤ n / d + 1 / 2 ∧ (n : ℚ) / d - 1 / 2 ≤ roundDiv n d
      ∧ ((roundDiv n d : ℚ) = n / d + 1 / 2 ∨ (roundDiv n d : ℚ) = n / d - 1 / 2 →
          roundDiv n d % 2 = 0) := by
  obtain ⟨hup, hdown, heven⟩ := roundDiv_near (n := n) hd
  have hpos : (0 : ℚ) < d := by exact_mod_cast hd
  obtain ⟨x, hx⟩ : ∃ x : ℚ, (n : ℚ) / d = x := ⟨_, rfl⟩
  have hn : (n : ℚ) = x * d := by rw [← hx, div_mul_cancel₀ _ hpos.ne']
  have hup' : 2 * (d : ℚ) * roundDiv n d ≤ 2 * n + d := by exact_mod_cast hup
  have hdown' : 2 * (n : ℚ) ≤ 2 * d * roundDiv n d + d := by exact_mod_cast hdown
  rw [hn] at hup' hdown'
  rw [hx]
  refine ⟨by nlinarith, by nlinarith, ?_⟩
  rintro (h | h)
  · apply heven
    left
    have htie : 2 * (d : ℚ) * roundDiv n d = 2 * n + d := by rw [h, hn]; ring
    exact_mod_cast htie
  · apply heven
    right
    have htie : 2 * (n : ℚ) = 2 * d * roundDiv n d + d := by rw [h, hn]; ring
    exact_mod_cast htie

/-- A larger quotient is not rounded to a smaller number. -/
theorem roundDiv_mono {n' d' : Nat} (hd : 0 < d) (hd' : 0 < d')
    (h : (n : ℚ) / d ≤ n' / d') : roundDiv n d ≤ roundDiv n' d' := by
  obtain ⟨hup, -, heven⟩ := roundDiv_near_rat (n := n) hd
  obtain ⟨-, hdown, heven'⟩ := roundDiv_near_rat (n := n') hd'
  by_contra hless
  have hstep : (roundDiv n' d' : ℚ) + 1 ≤ roundDiv n d := by
    exact_mod_cast Nat.not_le.mp hless
  -- both quotients are the middle between two whole numbers, and both of these
  -- would be even
  have htie : (roundDiv n d : ℚ) = n / d + 1 / 2 := by linarith
  have htie' : (roundDiv n' d' : ℚ) = n' / d' - 1 / 2 := by linarith
  have hnext : (roundDiv n d : ℚ) = roundDiv n' d' + 1 := by linarith
  have hnext' : roundDiv n d = roundDiv n' d' + 1 := by exact_mod_cast hnext
  have h1 := heven (.inl htie)
  have h2 := heven' (.inr htie')
  omega

theorem roundDiv_one (n : Nat) : roundDiv n 1 = n := by
  unfold roundDiv
  simp [Nat.mod_one]

/-- Rounding does not pass a whole number. -/
theorem roundDiv_le {k : Nat} (hd : 0 < d) (h : (n : ℚ) / d ≤ k) : roundDiv n d ≤ k := by
  have hmono : roundDiv n d ≤ roundDiv k 1 := roundDiv_mono hd Nat.one_pos (by simpa using h)
  rwa [roundDiv_one] at hmono

/-- Rounding does not go below a whole number. -/
theorem le_roundDiv {k : Nat} (hd : 0 < d) (h : (k : ℚ) ≤ n / d) : k ≤ roundDiv n d := by
  have hmono : roundDiv k 1 ≤ roundDiv n d := roundDiv_mono Nat.one_pos hd (by simpa using h)
  rwa [roundDiv_one] at hmono

end Quotient

/-! ## §2. Mantissa and exponent. -/

section Fraction

variable {num den : Nat}

/-- Scaling multiplies by a power of two. -/
theorem scale_eq (num : Nat) {den : Nat} (hden : 0 < den) (power : Int) :
    0 < (scale num den power).2
      ∧ ((scale num den power).1 : ℚ) / (scale num den power).2
          = num / den * (2 : ℚ) ^ power := by
  have hpos : (0 : ℚ) < den := by exact_mod_cast hden
  unfold scale
  split
  next hneg =>
    obtain ⟨k, rfl⟩ : ∃ k : Nat, power = -k := ⟨(-power).toNat, by omega⟩
    refine ⟨by simpa using hden, ?_⟩
    simp only [neg_neg, Int.toNat_natCast, Nat.pow_eq, Nat.cast_mul, Nat.cast_pow, Nat.cast_ofNat,
      zpow_neg, zpow_natCast]
    field_simp
  next hneg =>
    obtain ⟨k, rfl⟩ : ∃ k : Nat, power = k := ⟨power.toNat, by omega⟩
    refine ⟨hden, ?_⟩
    simp only [Int.toNat_natCast, Nat.pow_eq, Nat.cast_mul, Nat.cast_pow, Nat.cast_ofNat,
      zpow_natCast]
    field_simp

/-- The power of two at or below a whole number. -/
theorem log2_bounds {n : Nat} (hn : 0 < n) :
    (2 : ℚ) ^ (n.log2 : Int) ≤ n ∧ (n : ℚ) < 2 ^ ((n.log2 : Int) + 1) := by
  have hlow : 2 ^ n.log2 ≤ n := Nat.log2_self_le hn.ne'
  have hhigh : n < 2 ^ (n.log2 + 1) := Nat.lt_log2_self
  constructor
  · rw [zpow_natCast]
    exact_mod_cast hlow
  · have hcast : ((n.log2 : Int) + 1) = ((n.log2 + 1 : Nat) : Int) := by push_cast; ring
    rw [hcast, zpow_natCast]
    exact_mod_cast hhigh

/-- The exponent that the sizes of numerator and denominator suggest. -/
def guess (num den : Nat) : Int := (num.log2 : Int) - (den.log2 : Int) - 52

/-- At this exponent a fraction has 52 or 53 binary digits. -/
theorem guess_bounds (hnum : 0 < num) (hden : 0 < den) :
    (2 : ℚ) ^ 51 < num / den * 2 ^ (-guess num den)
      ∧ (num : ℚ) / den * 2 ^ (-guess num den) < 2 ^ 53 := by
  obtain ⟨hnlow, hnhigh⟩ := log2_bounds hnum
  obtain ⟨hdlow, hdhigh⟩ := log2_bounds hden
  have hpos : (0 : ℚ) < den := by exact_mod_cast hden
  have htwo : (2 : ℚ) ≠ 0 := by norm_num
  unfold guess
  -- the exponent is the difference of the two lengths, which is off by one at most
  generalize (num.log2 : Int) = a at *
  generalize (den.log2 : Int) = b at *
  have hsplit : (2 : ℚ) ^ (-(a - b - 52)) = 2 ^ b * 2 ^ (52 : Int) / 2 ^ a := by
    rw [div_eq_mul_inv, ← zpow_neg, ← zpow_add₀ htwo, ← zpow_add₀ htwo]
    congr 1
    ring
  have ha : (0 : ℚ) < 2 ^ a := by positivity
  have hb : (0 : ℚ) < 2 ^ b := by positivity
  rw [zpow_add₀ htwo, zpow_one] at hnhigh hdhigh
  have hlow : (den : ℚ) * 2 ^ a < 2 * 2 ^ b * num := by
    calc (den : ℚ) * 2 ^ a < 2 ^ b * 2 * 2 ^ a := mul_lt_mul_of_pos_right hdhigh ha
      _ = 2 * 2 ^ b * 2 ^ a := by ring
      _ ≤ 2 * 2 ^ b * num := mul_le_mul_of_nonneg_left hnlow (by positivity)
  have hhigh : (num : ℚ) * 2 ^ b < 2 * 2 ^ a * den := by
    calc (num : ℚ) * 2 ^ b < 2 ^ a * 2 * 2 ^ b := mul_lt_mul_of_pos_right hnhigh hb
      _ = 2 * 2 ^ a * 2 ^ b := by ring
      _ ≤ 2 * 2 ^ a * den := mul_le_mul_of_nonneg_left hdlow (by positivity)
  rw [hsplit, div_mul_div_comm, lt_div_iff₀ (by positivity), div_lt_iff₀ (by positivity)]
  norm_num
  constructor
  · nlinarith
  · nlinarith

/-- The exponent at which a fraction has 53 binary digits. -/
def exact (num den : Nat) : Int :=
  if (scale num den (-guess num den)).1 / (scale num den (-guess num den)).2 < 2 ^ 52 then
    guess num den - 1
  else guess num den

theorem exponentOf_eq (num den : Nat) : exponentOf num den = max (exact num den) minExponent :=
  rfl

/-- The exponent puts the number between two powers of two. -/
theorem exact_bounds (hnum : 0 < num) (hden : 0 < den) :
    (2 : ℚ) ^ 52 ≤ num / den * 2 ^ (-exact num den)
      ∧ (num : ℚ) / den * 2 ^ (-exact num den) < 2 ^ 53 := by
  obtain ⟨hlow, hhigh⟩ := guess_bounds hnum hden
  obtain ⟨hpos, hscale⟩ := scale_eq num hden (-guess num den)
  have hfloor : (scale num den (-guess num den)).1 / (scale num den (-guess num den)).2 < 2 ^ 52
      ↔ (num : ℚ) / den * 2 ^ (-guess num den) < 2 ^ 52 := by
    have hpos' : (0 : ℚ) < (scale num den (-guess num den)).2 := by exact_mod_cast hpos
    rw [Nat.div_lt_iff_lt_mul hpos, ← hscale, div_lt_iff₀ hpos']
    exact_mod_cast Iff.rfl
  unfold exact
  by_cases hsmall : (num : ℚ) / den * 2 ^ (-guess num den) < 2 ^ 52
  · -- one digit is missing, so the exponent is one less
    have hshift : (num : ℚ) / den * 2 ^ (-(guess num den - 1))
        = 2 * (num / den * 2 ^ (-guess num den)) := by
      rw [neg_sub, sub_eq_add_neg, zpow_add₀ (by norm_num), zpow_one]
      ring
    rw [if_pos (hfloor.mpr hsmall), hshift]
    constructor
    · linarith
    · linarith
  · rw [if_neg (fun h => hsmall (hfloor.mp h))]
    exact ⟨not_lt.mp hsmall, hhigh⟩

/-- **The exponent of a fraction** leaves a mantissa of at most 53 binary digits,
and of exactly 53 where it is not the least exponent. -/
theorem exponentOf_bounds (hnum : 0 < num) (hden : 0 < den) :
    minExponent ≤ exponentOf num den
      ∧ (num : ℚ) / den * 2 ^ (-exponentOf num den) < 2 ^ 53
      ∧ (minExponent < exponentOf num den →
          (2 : ℚ) ^ 52 ≤ num / den * 2 ^ (-exponentOf num den)) := by
  obtain ⟨hlow, hhigh⟩ := exact_bounds hnum hden
  rw [exponentOf_eq]
  refine ⟨le_max_right _ _, ?_, ?_⟩
  · have hpow : (2 : ℚ) ^ (-max (exact num den) minExponent) ≤ 2 ^ (-exact num den) :=
      zpow_le_zpow_right₀ (by norm_num) (by omega)
    have hmul := mul_le_mul_of_nonneg_left hpow (by positivity : (0 : ℚ) ≤ num / den)
    linarith
  · intro hmin
    have hmax : max (exact num den) minExponent = exact num den := by omega
    rw [hmax]
    exact hlow

/-- The mantissa of a fraction, rounded; it may have one digit too many. -/
def mantissaOf (num den : Nat) : Nat :=
  roundDiv (scale num den (-exponentOf num den)).1 (scale num den (-exponentOf num den)).2

/-- The mantissa has at most 53 bits. -/
theorem mantissaOf_le (hnum : 0 < num) (hden : 0 < den) : mantissaOf num den ≤ 2 ^ 53 := by
  obtain ⟨hpos, hscale⟩ := scale_eq num hden (-exponentOf num den)
  obtain ⟨-, hhigh, -⟩ := exponentOf_bounds hnum hden
  apply roundDiv_le hpos
  rw [hscale]
  exact_mod_cast hhigh.le

/-- A number that is not tiny uses them all. -/
theorem le_mantissaOf (hnum : 0 < num) (hden : 0 < den)
    (hmin : minExponent < exponentOf num den) : 2 ^ 52 ≤ mantissaOf num den := by
  obtain ⟨hpos, hscale⟩ := scale_eq num hden (-exponentOf num den)
  obtain ⟨-, -, hlow⟩ := exponentOf_bounds hnum hden
  apply le_roundDiv hpos
  rw [hscale]
  exact_mod_cast hlow hmin

/-- A fraction rounded to 53 binary digits, however large it is. -/
def magnitude (num den : Nat) : ℚ := mantissaOf num den * 2 ^ exponentOf num den

theorem magnitude_nonneg (num den : Nat) : 0 ≤ magnitude num den := by
  unfold magnitude
  positivity

theorem magnitude_zero (den : Nat) : magnitude 0 den = 0 := by
  have hzero : ∀ power, (scale 0 den power).1 = 0 := by
    intro power
    unfold scale
    split <;> simp
  have hround : ∀ d, roundDiv 0 d = 0 := by
    intro d
    unfold roundDiv
    simp
  simp [magnitude, mantissaOf, hzero, hround]

/-- Mantissas that have 53 digits at different exponents do not overlap. -/
theorem shift_le {e e' : Int} (h : e < e') : (2 : ℚ) ^ 53 * 2 ^ e ≤ 2 ^ 52 * 2 ^ e' := by
  calc (2 : ℚ) ^ 53 * 2 ^ e = 2 ^ 52 * 2 ^ (e + 1) := by
        rw [zpow_add₀ (by norm_num), zpow_one]
        ring
    _ ≤ 2 ^ 52 * 2 ^ e' :=
        mul_le_mul_of_nonneg_left (zpow_le_zpow_right₀ (by norm_num) (by omega)) (by positivity)

/-- **A larger fraction is not rounded to a smaller number.** -/
theorem magnitude_mono {num' den' : Nat} (hden : 0 < den) (hden' : 0 < den')
    (h : (num : ℚ) / den ≤ num' / den') : magnitude num den ≤ magnitude num' den' := by
  rcases Nat.eq_zero_or_pos num with rfl | hnum
  · rw [magnitude_zero]
    exact magnitude_nonneg _ _
  have hden0 : (0 : ℚ) < den := by exact_mod_cast hden
  have hden0' : (0 : ℚ) < den' := by exact_mod_cast hden'
  have hfrac : (0 : ℚ) < num / den := div_pos (by exact_mod_cast hnum) hden0
  have hnum' : 0 < num' := by
    have hpos : (0 : ℚ) < num' := (div_pos_iff_of_pos_right hden0').mp (hfrac.trans_le h)
    exact_mod_cast hpos
  have hstep : ∀ e : Int, (0 : ℚ) < 2 ^ e := fun e => by positivity
  unfold magnitude
  rcases lt_trichotomy (exponentOf num den) (exponentOf num' den') with hlt | heq | hgt
  · -- the smaller one ends where the larger one begins
    have hmin : minExponent < exponentOf num' den' :=
      (exponentOf_bounds hnum hden).1.trans_lt hlt
    have hup : (mantissaOf num den : ℚ) ≤ 2 ^ 53 := by exact_mod_cast mantissaOf_le hnum hden
    have hdown : (2 : ℚ) ^ 52 ≤ mantissaOf num' den' := by
      exact_mod_cast le_mantissaOf hnum' hden' hmin
    calc (mantissaOf num den : ℚ) * 2 ^ exponentOf num den
        ≤ 2 ^ 53 * 2 ^ exponentOf num den := mul_le_mul_of_nonneg_right hup (hstep _).le
      _ ≤ 2 ^ 52 * 2 ^ exponentOf num' den' := shift_le hlt
      _ ≤ mantissaOf num' den' * 2 ^ exponentOf num' den' :=
          mul_le_mul_of_nonneg_right hdown (hstep _).le
  · obtain ⟨hpos, hscale⟩ := scale_eq num hden (-exponentOf num den)
    obtain ⟨hpos', hscale'⟩ := scale_eq num' hden' (-exponentOf num' den')
    have hmono : mantissaOf num den ≤ mantissaOf num' den' := by
      apply roundDiv_mono hpos hpos'
      rw [hscale, hscale', heq]
      exact mul_le_mul_of_nonneg_right h (hstep _).le
    rw [heq]
    exact mul_le_mul_of_nonneg_right (by exact_mod_cast hmono) (hstep _).le
  · -- a smaller fraction has no larger exponent
    have hmin : minExponent < exponentOf num den :=
      (exponentOf_bounds hnum' hden').1.trans_lt hgt
    have hlow := (exponentOf_bounds hnum hden).2.2 hmin
    have hhigh := (exponentOf_bounds hnum' hden').2.1
    rw [zpow_neg, ← div_eq_mul_inv, le_div_iff₀ (hstep _)] at hlow
    rw [zpow_neg, ← div_eq_mul_inv, div_lt_iff₀ (hstep _)] at hhigh
    have := shift_le hgt
    linarith

/-- Rounding leaves whole numbers of at most 53 binary digits alone. -/
theorem magnitude_whole {n : Nat} (hn : n < 2 ^ 53) : magnitude n 1 = n := by
  have hlog : n.log2 ≤ 52 := by
    rcases Nat.eq_zero_or_pos n with rfl | hpos
    · simp
    · exact Nat.lt_succ_iff.mp ((Nat.log2_lt hpos.ne').mpr hn)
  have hone : (Nat.log2 1 : Int) = 0 := by decide
  have hle : exponentOf n 1 ≤ 0 := by
    rw [exponentOf_eq]
    unfold exact guess minExponent
    split <;> omega
  -- so the mantissa is a whole multiple of the number, and nothing is rounded
  obtain ⟨k, hk⟩ : ∃ k : Nat, exponentOf n 1 = -k := ⟨(-exponentOf n 1).toNat, by omega⟩
  have hscale : scale n 1 k = (n * 2 ^ k, 1) := by
    unfold scale
    rw [if_neg (by omega)]
    simp
  unfold magnitude mantissaOf
  rw [hk, neg_neg, hscale, roundDiv_one, zpow_neg, zpow_natCast]
  push_cast
  field_simp

end Fraction

/-! ## §3. The place of a number. -/

/-- The first size that is too large for the format. -/
def tooLarge : ℚ := 2 ^ 53 * 2 ^ maxExponent

/-- The value of a finite number. -/
theorem value_finite (negative : Bool) (m : Nat) (e : Int) :
    value (.finite negative m e) = if negative then -((m : ℚ) * 2 ^ e) else m * 2 ^ e := by
  obtain ⟨-, hscale⟩ := scale_eq m Nat.one_pos e
  have hsize : ((scale m 1 e).1 : ℚ) / (scale m 1 e).2 = m * 2 ^ e := by
    rw [hscale]
    simp
  simp only [value, toRat?, ratio, Option.getD_some]
  rw [hsize]

/-- **The nearest number** is the rounded fraction, or infinite where that is
too large. -/
theorem ofRatio_eq (negative : Bool) (num : Nat) {den : Nat} (hden : 0 < den) :
    (tooLarge ≤ magnitude num den ∧ ofRatio negative num den = .infinite negative)
      ∨ (magnitude num den < tooLarge ∧ ∃ m e, ofRatio negative num den = .finite negative m e
          ∧ (m : ℚ) * 2 ^ e = magnitude num den) := by
  rcases Nat.eq_zero_or_pos num with rfl | hnum
  · right
    rw [magnitude_zero]
    exact ⟨by unfold tooLarge; positivity, 0, 0, rfl, by simp⟩
  have hle := mantissaOf_le hnum hden
  have hge := le_mantissaOf hnum hden
  have hof : ofRatio negative num den
      = normal negative (mantissaOf num den) (exponentOf num den) := by
    unfold ofRatio
    rw [if_neg (by simpa using hnum.ne')]
    rfl
  rw [hof]
  unfold magnitude tooLarge
  generalize mantissaOf num den = m at *
  generalize exponentOf num den = e at *
  have hstep : ∀ e : Int, (0 : ℚ) < 2 ^ e := fun e => by positivity
  have hmin : minExponent < maxExponent := by decide
  simp only [normal, Nat.pow_eq, beq_iff_eq]
  generalize maxExponent = top at *
  by_cases hlong : m = 2 ^ 53
  · -- one digit too many: half the mantissa at the next exponent
    subst hlong
    have hhalf : ((2 ^ 52 : Nat) : ℚ) * 2 ^ (e + 1) = ((2 ^ 53 : Nat) : ℚ) * 2 ^ e := by
      rw [zpow_add₀ (by norm_num), zpow_one]
      push_cast
      ring
    rw [if_pos rfl]
    by_cases hbig : top < e + 1
    · left
      refine ⟨?_, if_pos hbig⟩
      push_cast
      exact mul_le_mul_of_nonneg_left (zpow_le_zpow_right₀ (by norm_num) (by omega)) (by positivity)
    · right
      refine ⟨?_, 2 ^ 52, e + 1, if_neg hbig, hhalf⟩
      push_cast
      exact mul_lt_mul_of_pos_left (zpow_lt_zpow_right₀ (by norm_num) (by omega)) (by positivity)
  · have hshort : (m : ℚ) < 2 ^ 53 := by exact_mod_cast lt_of_le_of_ne hle hlong
    rw [if_neg hlong]
    by_cases hbig : top < e
    · left
      refine ⟨?_, if_pos hbig⟩
      have hfull : (2 : ℚ) ^ 52 ≤ m := by exact_mod_cast hge (by omega)
      exact (shift_le hbig).trans (mul_le_mul_of_nonneg_right hfull (hstep e).le)
    · right
      refine ⟨?_, m, e, if_neg hbig, rfl⟩
      calc (m : ℚ) * 2 ^ e < 2 ^ 53 * 2 ^ e := mul_lt_mul_of_pos_right hshort (hstep e)
        _ ≤ 2 ^ 53 * 2 ^ top :=
            mul_le_mul_of_nonneg_left (zpow_le_zpow_right₀ (by norm_num) (by omega)) (by positivity)

/-- A fraction rounded to 53 binary digits, with its sign. -/
def rounded (q : ℚ) : ℚ :=
  if q.num < 0 then -magnitude q.num.natAbs q.den else magnitude q.num.natAbs q.den

theorem natAbs_div_den (q : ℚ) : (q.num.natAbs : ℚ) / q.den = |q| := by
  rw [Nat.cast_natAbs, Int.cast_abs]
  conv_rhs => rw [← q.num_div_den, abs_div, Nat.abs_cast]

/-- **Rounding is monotone.** -/
theorem rounded_mono {p q : ℚ} (h : p ≤ q) : rounded p ≤ rounded q := by
  have hsize : ∀ {a b : ℚ}, |a| ≤ |b| →
      magnitude a.num.natAbs a.den ≤ magnitude b.num.natAbs b.den := by
    intro a b hab
    apply magnitude_mono a.den_pos b.den_pos
    rwa [natAbs_div_den, natAbs_div_den]
  have hp := magnitude_nonneg p.num.natAbs p.den
  have hq := magnitude_nonneg q.num.natAbs q.den
  unfold rounded
  simp only [Rat.num_neg]
  -- below zero the larger number has the smaller size
  split_ifs with hneg hneg' hneg'
  · apply neg_le_neg
    apply hsize
    rw [abs_of_neg hneg, abs_of_neg hneg']
    exact neg_le_neg h
  · linarith
  · exact absurd (h.trans_lt hneg') hneg
  · apply hsize
    rwa [abs_of_nonneg (not_lt.mp hneg), abs_of_nonneg (not_lt.mp hneg')]

/-- Whole numbers below the 53rd power of two are not rounded. -/
theorem rounded_whole {n : Int} (hn : n.natAbs < 2 ^ 53) : rounded n = n := by
  have hsize := magnitude_whole hn
  unfold rounded
  simp only [Rat.num_intCast, Rat.den_intCast, hsize, Nat.cast_natAbs, Int.cast_abs]
  split
  next hneg =>
    rw [abs_of_neg (by exact_mod_cast hneg), neg_neg]
  next hpos =>
    exact abs_of_nonneg (by exact_mod_cast not_lt.mp hpos)

/-- The place of a number on a line that has two ends; what is no number has
none. -/
def rank : Binary64 → Option (WithBot (WithTop ℚ))
  | .nan => none
  | .infinite true => some ⊥
  | .infinite false => some ⊤
  | x@(.finite ..) => some ((x.value : WithTop ℚ) : WithBot (WithTop ℚ))

/-- A value cut off where the format ends. -/
def clamp (q : ℚ) : WithBot (WithTop ℚ) :=
  if q ≤ -tooLarge then ⊥ else if tooLarge ≤ q then ⊤ else ((q : WithTop ℚ) : WithBot (WithTop ℚ))

theorem tooLarge_pos : 0 < tooLarge := by
  unfold tooLarge
  positivity

theorem clamp_of_le {q : ℚ} (h : q ≤ -tooLarge) : clamp q = ⊥ := if_pos h

theorem clamp_of_ge {q : ℚ} (h : tooLarge ≤ q) : clamp q = ⊤ := by
  have hpos := tooLarge_pos
  unfold clamp
  rw [if_neg (by linarith), if_pos h]

/-- What is not too large stays as it is. -/
theorem clamp_of_between {q : ℚ} (hlow : -tooLarge < q) (hhigh : q < tooLarge) :
    clamp q = ((q : WithTop ℚ) : WithBot (WithTop ℚ)) := by
  unfold clamp
  rw [if_neg (not_le.mpr hlow), if_neg (not_le.mpr hhigh)]

/-- Clamping is monotone. -/
theorem clamp_mono {p q : ℚ} (h : p ≤ q) : clamp p ≤ clamp q := by
  by_cases hlow : p ≤ -tooLarge
  · rw [clamp_of_le hlow]
    exact bot_le
  by_cases hhigh : tooLarge ≤ q
  · rw [clamp_of_ge hhigh]
    exact le_top
  rw [clamp_of_between (by linarith) (by linarith), clamp_of_between (by linarith) (by linarith)]
  exact WithBot.coe_le_coe.mpr (WithTop.coe_le_coe.mpr h)

/-- **The place of a rounded fraction.** -/
theorem rank_ofRat (zeroNegative : Bool) (q : ℚ) :
    (ofRat zeroNegative q).rank = some (clamp (rounded q)) := by
  have hpos := tooLarge_pos
  unfold ofRat
  split
  next hzero =>
    have hq : q = 0 := Rat.num_eq_zero.mp (by simpa using hzero)
    have hnone : rounded q = 0 := by
      rw [hq]
      simpa using rounded_whole (n := 0) (by norm_num)
    rw [hnone, clamp_of_between (by linarith) hpos]
    simp [rank, value_finite]
  next hzero =>
    have hsize := magnitude_nonneg q.num.natAbs q.den
    have hround := ofRatio_eq (decide (q.num < 0)) q.num.natAbs q.den_pos
    unfold rounded
    generalize magnitude q.num.natAbs q.den = size at *
    -- the magnitude is rounded alone, so the two signs are mirror images
    by_cases hneg : q.num < 0
    · rw [if_pos hneg]
      rw [decide_eq_true hneg] at hround ⊢
      obtain ⟨hbig, hinf⟩ | ⟨hsmall, m, e, hfin, hval⟩ := hround
      · rw [hinf, clamp_of_le (by linarith)]
        rfl
      · rw [hfin, clamp_of_between (by linarith) (by linarith), ← hval, rank, value_finite]
        rfl
    · rw [if_neg hneg]
      rw [decide_eq_false hneg] at hround ⊢
      obtain ⟨hbig, hinf⟩ | ⟨hsmall, m, e, hfin, hval⟩ := hround
      · rw [hinf, clamp_of_ge hbig]
        rfl
      · rw [hfin, clamp_of_between (by linarith) hsmall, ← hval, rank, value_finite]
        rfl

/-! ## §4. Differences. -/

theorem value_neg (x : Binary64) : x.neg.value = -x.value := by
  cases x with
  | finite negative m e => cases negative <;> simp [neg, value_finite]
  | infinite negative => simp [neg, value, toRat?]
  | nan => simp [neg, value, toRat?]

/-- **A difference of finite numbers** is the exact difference, rounded and clamped. -/
theorem rank_finite_sub (negative negative' : Bool) (m m' : Nat) (e e' : Int) :
    ((finite negative m e).sub (finite negative' m' e')).rank
      = some (clamp (rounded ((finite negative m e).value - (finite negative' m' e').value))) := by
  have hneg := value_neg (finite negative' m' e')
  unfold neg at hneg
  simp only [sub, neg, add, rank_ofRat, hneg, sub_eq_add_neg]

section Ends

variable {w : Binary64} {a : WithBot (WithTop ℚ)}

/-- A number that is not before the upper end is that end. -/
theorem eq_infinite_of_top_le (hw : w.rank = some a) (ha : ⊤ ≤ a) : w = .infinite false := by
  obtain rfl := top_le_iff.mp ha
  cases w with
  | finite negative m e =>
    have hcoe : ((value (.finite negative m e) : WithTop ℚ) : WithBot (WithTop ℚ)) = ⊤ :=
      Option.some.inj hw
    exact absurd (WithBot.coe_eq_top.mp hcoe) WithTop.coe_ne_top
  | infinite negative =>
    cases negative with
    | false => rfl
    | true => exact absurd (Option.some.inj hw) bot_ne_top
  | nan => exact absurd hw (by simp [rank])

/-- Counted from the lower end everything else is infinitely far. -/
theorem rank_sub_lower (hw : w.rank = some a) (ha : a ≠ ⊥) :
    (w.sub (.infinite true)).rank = some ⊤ := by
  cases w with
  | finite negative m e => rfl
  | infinite negative =>
    cases negative with
    | false => rfl
    | true => exact absurd (Option.some.inj hw).symm ha
  | nan => exact absurd hw (by simp [rank])

/-- Counted from a number everything has a place. -/
theorem exists_rank_sub_finite (hw : w.rank = some a) (negative : Bool) (m : Nat) (e : Int) :
    ∃ b, (w.sub (.finite negative m e)).rank = some b := by
  cases w with
  | finite negative' m' e' => exact ⟨_, rank_finite_sub ..⟩
  | infinite negative' =>
    cases negative' with
    | false => exact ⟨⊤, rfl⟩
    | true => exact ⟨⊥, rfl⟩
  | nan => exact absurd hw (by simp [rank])

end Ends

section Differences

variable {x y z : Binary64} {p q r : WithBot (WithTop ℚ)}

/-- Differences to a finite number are monotone. -/
theorem rank_sub_finite_mono (hy : y.rank = some q) (hz : z.rank = some r) (hqr : q ≤ r)
    (negative : Bool) (m : Nat) (e : Int) :
    ∃ a b, (y.sub (.finite negative m e)).rank = some a
      ∧ (z.sub (.finite negative m e)).rank = some b ∧ a ≤ b := by
  obtain ⟨b, hb⟩ := exists_rank_sub_finite hz negative m e
  cases y with
  | nan => exact absurd hy (by simp [rank])
  | infinite lower =>
    cases lower with
    | true => exact ⟨⊥, b, rfl, hb, bot_le⟩
    | false =>
      obtain rfl := eq_infinite_of_top_le hz ((Option.some.inj hy).le.trans hqr)
      exact ⟨⊤, ⊤, rfl, rfl, le_rfl⟩
  | finite negative' m' e' =>
    cases z with
    | nan => exact absurd hz (by simp [rank])
    | infinite lower =>
      cases lower with
      | false => exact ⟨_, ⊤, rank_finite_sub .., rfl, le_top⟩
      | true =>
        -- a number is not before the lower end
        rw [← Option.some.inj hy, ← Option.some.inj hz] at hqr
        exact absurd (le_bot_iff.mp hqr) WithBot.coe_ne_bot
    | finite negative'' m'' e'' =>
      rw [← Option.some.inj hy, ← Option.some.inj hz] at hqr
      have hle := WithTop.coe_le_coe.mp (WithBot.coe_le_coe.mp hqr)
      -- both the difference and its rounding keep the order
      exact ⟨_, _, rank_finite_sub .., rank_finite_sub ..,
        clamp_mono (rounded_mono (sub_le_sub_right hle _))⟩

/-- **Differences keep the order.** Of two moments that are not before a third,
the later one is not less far from it; only the distance of infinity from
itself is no number. -/
theorem rank_sub_mono (hx : x.rank = some p) (hy : y.rank = some q) (hz : z.rank = some r)
    (hpq : p ≤ q) (hqr : q ≤ r) :
    (y.sub x).rank = none
      ∨ ∃ a b, (y.sub x).rank = some a ∧ (z.sub x).rank = some b ∧ a ≤ b := by
  cases x with
  | nan => exact absurd hx (by simp [rank])
  | finite negative m e => exact .inr (rank_sub_finite_mono hy hz hqr negative m e)
  | infinite negative =>
    cases negative with
    | false =>
      -- nothing is later than the upper end
      obtain rfl := eq_infinite_of_top_le hy ((Option.some.inj hx).le.trans hpq)
      exact .inl rfl
    | true =>
      by_cases hq : q = ⊥
      · left
        cases y with
        | nan => exact absurd hy (by simp [rank])
        | finite negative m e => exact absurd ((Option.some.inj hy).trans hq) WithBot.coe_ne_bot
        | infinite negative =>
          cases negative with
          | true => rfl
          | false => exact absurd ((Option.some.inj hy).trans hq) top_ne_bot
      · have hr : r ≠ ⊥ := fun h => hq (le_bot_iff.mp (h ▸ hqr))
        exact .inr ⟨⊤, ⊤, rank_sub_lower hy hq, rank_sub_lower hz hr, le_rfl⟩

end Differences

end Offside.Binary64
