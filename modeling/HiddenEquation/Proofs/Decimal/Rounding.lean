import HiddenEquation.Decimal.Style
import HiddenEquation.Proofs.Decimal.Rational
import Mathlib.Tactic.Ring

/-!
# Rounding to a double

A significand that is too long is shifted right one bit at a time.  The last bit shifted out
and whether any bit before it was set are kept, and decide how the significand is rounded.
`Divided` is what is known after every shift, also if the significand was the whole part of a
quotient from the start, and says that the rounding is `roundDiv`.

* `Divided.roundedMantissa` : shifting and rounding is one rounded division.
* `exists_roundWithAccuracy_div` : the double that a quotient is rounded to.
* `exists_roundWithAccuracy` : the double that a long significand is rounded to.
-/

namespace HiddenEquation.Decimal

open Float.Model

/-! ## Rounded division -/

theorem roundDiv_bounds (n d : Nat) : n / d ≤ roundDiv n d ∧ roundDiv n d ≤ n / d + 1 := by
  rw [roundDiv]
  split
  · omega
  · split
    · omega
    · split <;> omega

theorem roundDiv_mul_right (n d : Nat) {k : Nat} (hk : 0 < k) :
    roundDiv (n * k) (d * k) = roundDiv n d := by
  rw [roundDiv, roundDiv]
  rw [Nat.mul_div_mul_right _ _ hk, Nat.mul_mod_mul_right, ← Nat.mul_assoc]
  simp only [Nat.mul_lt_mul_right hk]

theorem roundDiv_mul_self (q : Nat) {d : Nat} (hd : 0 < d) : roundDiv (q * d) d = q := by
  rw [roundDiv]
  rw [Nat.mul_mod_left, if_pos (by omega), Nat.mul_div_cancel _ hd]

theorem roundDiv_mul_eq_iff {n d : Nat} (hd : 0 < d) : roundDiv n d * d = n ↔ d ∣ n := by
  constructor
  · intro h
    exact ⟨roundDiv n d, by rw [Nat.mul_comm, h]⟩
  · rintro ⟨q, rfl⟩
    rw [Nat.mul_comm d q, roundDiv_mul_self q hd]

/-- The rounded quotient is the whole number that the quotient is within a half of; half-way, the
even one. -/
theorem roundDiv_eq_of_near {n d m : Nat} (hd : 0 < d) (hlo : 2 * (m * d) ≤ 2 * n + d)
    (hhi : 2 * n ≤ 2 * (m * d) + d)
    (htie : m % 2 = 1 → 2 * (m * d) ≠ 2 * n + d ∧ 2 * n ≠ 2 * (m * d) + d) :
    roundDiv n d = m := by
  have hdiv : n / d * d + n % d = n := Nat.div_add_mod' n d
  have hrest : n % d < d := Nat.mod_lt n hd
  -- the quotient rounded down is the number or the one before it
  have hcases : n / d = m ∨ n / d + 1 = m := by
    have hlt : n / d < m + 1 := by
      apply Nat.lt_of_mul_lt_mul_right (a := d)
      rw [Nat.add_mul, Nat.one_mul]
      omega
    have hle : m < n / d + 2 := by
      apply Nat.lt_of_mul_lt_mul_right (a := d)
      rw [Nat.add_mul]
      omega
    omega
  rw [roundDiv]
  rcases hcases with rfl | rfl
  · split
    · rfl
    · split
      · omega
      · split
        · rfl
        · omega
  · rw [Nat.add_mul, Nat.one_mul] at hlo hhi htie
    split
    · omega
    · split
      · rfl
      · split
        · omega
        · rfl

/-! ## Shifting -/

/-- What is left of `n` when it is divided by `d`: the rest of the division lies above or below
the half as the two residual bits say. -/
structure Divided (n d : Nat) (em : UnpackedFloat.ExtendedMantissa) : Prop where
  mantissa : em.mantissa = n / d
  roundBit : em.roundBit = true ↔ d ≤ 2 * (n % d)
  stickyBit : em.stickyBit = true ↔ n % d ≠ 0 ∧ 2 * (n % d) ≠ d

namespace Divided

variable {n d : Nat} {em : UnpackedFloat.ExtendedMantissa}

/-- A quotient starts out with what its rest says. -/
theorem ofFraction (n : Nat) (hd : 0 < d) :
    Divided n d (.ofMantissaAndAccuracy (n / d) (UnpackedFloat.accuracyOfFraction (n % d) d)) := by
  rw [UnpackedFloat.accuracyOfFraction]
  by_cases hzero : n % d = 0
  · rw [if_pos hzero]
    exact ⟨rfl, by simp [UnpackedFloat.ExtendedMantissa.ofMantissaAndAccuracy]; omega,
      by simp [UnpackedFloat.ExtendedMantissa.ofMantissaAndAccuracy]; omega⟩
  · rw [if_neg hzero]
    cases hcompare : compare (2 * (n % d)) d with
    | lt =>
      have hlt := Nat.compare_eq_lt.1 hcompare
      exact ⟨rfl, by simp [UnpackedFloat.ExtendedMantissa.ofMantissaAndAccuracy]; omega,
        by simp [UnpackedFloat.ExtendedMantissa.ofMantissaAndAccuracy]; omega⟩
    | eq =>
      have heq := Nat.compare_eq_eq.1 hcompare
      exact ⟨rfl, by simp [UnpackedFloat.ExtendedMantissa.ofMantissaAndAccuracy]; omega,
        by simp [UnpackedFloat.ExtendedMantissa.ofMantissaAndAccuracy]; omega⟩
    | gt =>
      have hgt := Nat.compare_eq_gt.1 hcompare
      exact ⟨rfl, by simp [UnpackedFloat.ExtendedMantissa.ofMantissaAndAccuracy]; omega,
        by simp [UnpackedFloat.ExtendedMantissa.ofMantissaAndAccuracy]; omega⟩

/-- One more bit shifted out. -/
theorem shiftRightOne (hd : 0 < d) (h : Divided n d em) : Divided n (d * 2) em.shiftRightOne := by
  have hlt : n % d < d := Nat.mod_lt _ hd
  have hround := h.roundBit
  have hsticky := h.stickyBit
  -- The rest grows by the bit that is shifted out, at its place.
  have hrest : n % (d * 2) = n % d + d * (n / d % 2) := Nat.mod_mul
  refine ⟨?_, ?_, ?_⟩
  · rw [UnpackedFloat.ExtendedMantissa.shiftRightOne, h.mantissa, Nat.div_div_eq_div_mul]
  · rw [UnpackedFloat.ExtendedMantissa.shiftRightOne, h.mantissa, bne_iff_ne, hrest]
    rcases Nat.mod_two_eq_zero_or_one (n / d) with hbit | hbit
    · rw [hbit]
      omega
    · rw [hbit]
      omega
  · rw [UnpackedFloat.ExtendedMantissa.shiftRightOne, Bool.or_eq_true, hround, hsticky, hrest]
    rcases Nat.mod_two_eq_zero_or_one (n / d) with hbit | hbit
    · rw [hbit]
      omega
    · rw [hbit]
      omega

theorem shiftRight (hd : 0 < d) (h : Divided n d em) (k : Nat) :
    Divided n (d * 2 ^ k) (em >>> k) := by
  induction k with
  | zero =>
    rw [Nat.pow_zero, Nat.mul_one]
    exact h
  | succ k ih =>
    rw [Nat.pow_succ, ← Nat.mul_assoc]
    exact ih.shiftRightOne (Nat.mul_pos hd (Nat.two_pow_pos k))

/-- **Shifting and rounding is one rounded division.** -/
theorem roundedMantissa (h : Divided n d em) : em.roundedMantissa = roundDiv n d := by
  obtain ⟨mantissa, roundBit, stickyBit⟩ := em
  obtain ⟨hm, hround, hsticky⟩ := h
  dsimp only at hm hround hsticky
  rw [roundDiv, ← hm]
  cases roundBit with
  | false =>
    have hbelow : 2 * (n % d) < d := by
      rw [← Nat.not_le, ← hround]
      exact Bool.false_ne_true
    rw [if_pos hbelow]
    cases stickyBit <;> rfl
  | true =>
    have hhalf : d ≤ 2 * (n % d) := hround.1 rfl
    rw [if_neg (Nat.not_lt.2 hhalf)]
    cases stickyBit with
    | true =>
      have hne := (hsticky.1 rfl).2
      rw [if_pos (by omega)]
      rfl
    | false =>
      have htie : ¬(n % d ≠ 0 ∧ 2 * (n % d) ≠ d) := by
        rw [← hsticky]
        exact Bool.false_ne_true
      rw [if_neg (by omega)]
      change mantissa + mantissa % 2 = _
      split <;> omega

end Divided

/-! ## Rounding to 53 bits -/

section

variable {n d m k : Nat} {e : Int}

/-- The exponent that leaves 53 bits of the significand, or the least one there is. -/
theorem targetExponent_totalExponent (m : Nat) (e : Int) :
    Format.binary64.targetExponent (totalExponent m e) = max (m.log2 + e - 52) (-1074) := by
  rw [Format.targetExponent, totalExponent,
    show (Format.binary64.mantissaBits : Int) = 53 from rfl,
    show Format.binary64.minExponent = -1074 from rfl]
  omega

/-- A significand with `k` bits too many is shifted by `k`. -/
theorem shiftToTargetExponent_eq (a : UnpackedFloat.Accuracy) (hlog : m.log2 = 52 + k)
    (he : -1074 ≤ e + k) :
    UnpackedFloat.shiftToTargetExponent Format.binary64 m e a =
      (UnpackedFloat.ExtendedMantissa.ofMantissaAndAccuracy m a >>> k, e + k) := by
  have htarget : Format.binary64.targetExponent (totalExponent m e) = e + k := by
    rw [targetExponent_totalExponent, hlog]
    omega
  have hshift : (e + k - e).toNat = k := by omega
  rw [UnpackedFloat.shiftToTargetExponent, htarget, UnpackedFloat.shiftToExponent, hshift]

theorem accuracyOfFraction_one (m : Nat) :
    UnpackedFloat.accuracyOfFraction (m % 1) 1 = .exact := by
  rw [Nat.mod_one]
  rfl

/-- A whole number is divided by one from the start. -/
theorem divided_exact (m : Nat) :
    Divided m 1 (.ofMantissaAndAccuracy m UnpackedFloat.Accuracy.exact) := by
  have h := Divided.ofFraction m Nat.one_pos
  rwa [accuracyOfFraction_one, Nat.div_one] at h

/-- Rounding may carry into one bit more, and then the significand is shifted once more. -/
theorem roundWithAccuracy_div_eq (s : UnpackedFloat.Sign) {j : Nat} (hd : 0 < d)
    (hlog : (n / d).log2 = 52 + k) (he : -1074 ≤ e + k)
    (hcarry : (roundDiv n (d * 2 ^ k)).log2 = 52 + j)
    (hpos : 0 < roundDiv n (d * 2 ^ k) / 2 ^ j) :
    UnpackedFloat.roundWithAccuracy Format.binary64 s (n / d) e
        (UnpackedFloat.accuracyOfFraction (n % d) d) =
      .finite s (roundDiv n (d * 2 ^ k) / 2 ^ j) (e + k + j) hpos := by
  have hfirst := ((Divided.ofFraction n hd).shiftRight hd k).roundedMantissa
  have hsecond := ((divided_exact (roundDiv n (d * 2 ^ k))).shiftRight Nat.one_pos j).mantissa
  rw [Nat.one_mul] at hsecond
  rw [UnpackedFloat.roundWithAccuracy, shiftToTargetExponent_eq _ hlog he]
  dsimp only
  rw [hfirst, shiftToTargetExponent_eq _ hcarry (by omega)]
  dsimp only
  rw [dif_neg (by omega)]
  exact finite_congr s hsecond rfl

/-- Rounding a whole number may carry, too. -/
theorem roundWithAccuracy_eq (s : UnpackedFloat.Sign) {j : Nat} (hlog : m.log2 = 52 + k)
    (he : -1074 ≤ e + k) (hcarry : (roundDiv m (2 ^ k)).log2 = 52 + j)
    (hpos : 0 < roundDiv m (2 ^ k) / 2 ^ j) :
    UnpackedFloat.roundWithAccuracy Format.binary64 s m e .exact =
      .finite s (roundDiv m (2 ^ k) / 2 ^ j) (e + k + j) hpos := by
  have h := roundWithAccuracy_div_eq s (n := m) (d := 1) (k := k) (j := j) Nat.one_pos
    (by rwa [Nat.div_one]) he (by rwa [Nat.one_mul]) (by rwa [Nat.one_mul])
  rw [Nat.div_one, accuracyOfFraction_one] at h
  exact h.trans (finite_congr s (by rw [Nat.one_mul]) rfl)

/-- A quotient with `k` bits too many. -/
theorem quotient_bounds (hlog : (n / d).log2 = 52 + k) :
    2 ^ 52 * (d * 2 ^ k) ≤ n ∧ n < 2 ^ 53 * (d * 2 ^ k) := by
  have hm : n / d ≠ 0 := by
    intro hzero
    rw [hzero, Nat.log2_zero] at hlog
    omega
  have hd : 0 < d := Nat.pos_of_ne_zero fun hd => hm (by rw [hd, Nat.div_zero])
  obtain ⟨hlo, hhi⟩ := (Nat.log2_eq_iff hm).1 hlog
  rw [Nat.le_div_iff_mul_le hd, Nat.pow_add] at hlo
  rw [Nat.div_lt_iff_lt_mul hd, Nat.add_right_comm, Nat.pow_add] at hhi
  rw [Nat.mul_comm d, ← Nat.mul_assoc, ← Nat.mul_assoc]
  exact ⟨hlo, hhi⟩

/-- The rounded significand has 53 bits, or is the least number with 54. -/
theorem roundDiv_div_log2_bounds (hlog : (n / d).log2 = 52 + k) :
    2 ^ 52 ≤ roundDiv n (d * 2 ^ k) ∧ roundDiv n (d * 2 ^ k) ≤ 2 ^ 53 := by
  obtain ⟨hlo, hhi⟩ := quotient_bounds hlog
  obtain ⟨hbelow, habove⟩ := roundDiv_bounds n (d * 2 ^ k)
  have hpos : 0 < d * 2 ^ k := by omega
  rw [← Nat.le_div_iff_mul_le hpos] at hlo
  rw [← Nat.div_lt_iff_lt_mul hpos] at hhi
  omega

/-- **The double that a quotient is rounded to**, unless it is too great for one. -/
theorem exists_roundWithAccuracy_div (s : UnpackedFloat.Sign) (hd : 0 < d)
    (hlog : (n / d).log2 = 52 + k) (he : -1074 ≤ e + k)
    (he' : e + k ≤ 970 ∨ e + k = 971 ∧ roundDiv n (d * 2 ^ k) < 2 ^ 53) :
    ∃ m' e', ∃ hpos : 0 < m',
      UnpackedFloat.roundWithAccuracy Format.binary64 s (n / d) e
        (UnpackedFloat.accuracyOfFraction (n % d) d) = .finite s m' e' hpos ∧
      Canonical (.finite s m' e' hpos) ∧ 2 ^ 52 ≤ m' ∧
      (m' : ℚ) * 2 ^ e' = roundDiv n (d * 2 ^ k) * 2 ^ (e + k) := by
  obtain ⟨hlo, hhi⟩ := roundDiv_div_log2_bounds hlog
  by_cases hcarry : roundDiv n (d * 2 ^ k) < 2 ^ 53
  · have hlog' : (roundDiv n (d * 2 ^ k)).log2 = 52 + 0 :=
      (Nat.log2_eq_iff (by omega)).2 ⟨hlo, hcarry⟩
    have hpos : 0 < roundDiv n (d * 2 ^ k) / 2 ^ 0 := by omega
    refine ⟨_, _, hpos, roundWithAccuracy_div_eq s hd hlog he hlog' hpos, ?_, ?_, ?_⟩
    · exact .finite s hpos (by omega) (by omega) (by omega) (Or.inl (by omega))
    · omega
    · rw [Nat.pow_zero, Nat.div_one, Nat.cast_zero, add_zero]
  · have hmax : roundDiv n (d * 2 ^ k) = 2 ^ 53 := by omega
    have hlog' : (roundDiv n (d * 2 ^ k)).log2 = 52 + 1 := by rw [hmax, Nat.log2_two_pow]
    have hpos : 0 < roundDiv n (d * 2 ^ k) / 2 ^ 1 := by omega
    refine ⟨_, _, hpos, roundWithAccuracy_div_eq s hd hlog he hlog' hpos, ?_, ?_, ?_⟩
    · exact .finite s hpos (by omega) (by omega) (by omega) (Or.inl (by omega))
    · omega
    · rw [hmax, Nat.cast_one, zpow_add_one₀ two_ne_zero]
      norm_num
      ring

/-- **The double that a long significand is rounded to**, unless it is too great for one. -/
theorem exists_roundWithAccuracy (s : UnpackedFloat.Sign) (hlog : m.log2 = 52 + k)
    (he : -1074 ≤ e + k) (he' : e + k ≤ 970 ∨ e + k = 971 ∧ roundDiv m (2 ^ k) < 2 ^ 53) :
    ∃ m' e', ∃ hpos : 0 < m',
      UnpackedFloat.roundWithAccuracy Format.binary64 s m e .exact = .finite s m' e' hpos ∧
      Canonical (.finite s m' e' hpos) ∧ 2 ^ 52 ≤ m' ∧
      (m' : ℚ) * 2 ^ e' = roundDiv m (2 ^ k) * 2 ^ (e + k) := by
  have h := exists_roundWithAccuracy_div s (n := m) (d := 1) (k := k) Nat.one_pos
    (by rwa [Nat.div_one]) he (by rwa [Nat.one_mul])
  rwa [Nat.div_one, accuracyOfFraction_one, Nat.one_mul] at h

end

end HiddenEquation.Decimal
