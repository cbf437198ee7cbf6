import HiddenEquation.Proofs.Decimal.Arithmetic
import HiddenEquation.Proofs.Decimal.Finite

/-!
# Computations that are not rounded

A double has 53 bits for its digits, so no integer below `2 ^ 53` is rounded, and neither is a sum,
difference, product or quotient that is one.

* `IsSafe` : the integers below `2 ^ 53`.
* `StandsFor.beq_iff` : doubles compare equal if they stand for the same number.
* `StandsFor.add`, `StandsFor.sub` : a safe sum or difference is exact.
* `StandsFor.mul`, `StandsFor.div` : a safe product or quotient of safe integers is exact.
-/

namespace HiddenEquation.Decimal

open Float.Model

/-! ## Numbers with a sign -/

section

variable (s s' : UnpackedFloat.Sign) {r r' : ℚ}

theorem signed_mul : signed s r * signed s' r' = signed (s * s') (r * r') := by
  cases s with
  | negative =>
    cases s' with
    | negative => exact neg_mul_neg r r'
    | positive => exact neg_mul r r'
  | positive =>
    cases s' with
    | negative => exact mul_neg r r'
    | positive => rfl

theorem signed_div : signed s r / signed s' r' = signed (s / s') (r / r') := by
  cases s with
  | negative =>
    cases s' with
    | negative => exact neg_div_neg_eq r r'
    | positive => exact neg_div r' r
  | positive =>
    cases s' with
    | negative => exact div_neg r
    | positive => rfl

theorem signed_ne_zero (hr : 0 < r) : signed s r ≠ 0 := by
  cases s with
  | negative => exact neg_ne_zero.2 hr.ne'
  | positive => exact hr.ne'

theorem signed_inj (hr : 0 < r) (hr' : 0 < r') (h : signed s r = signed s' r') :
    s = s' ∧ r = r' := by
  cases s with
  | negative =>
    cases s' with
    | negative => exact ⟨rfl, neg_injective h⟩
    | positive =>
      have hneg : -r = r' := h
      linarith
  | positive =>
    cases s' with
    | negative =>
      have hneg : r = -r' := h
      linarith
    | positive => exact ⟨rfl, h⟩

/-- The sign of an integer in front of a power of two. -/
theorem apply_mul_zpow (n : ℕ) (e : ℤ) :
    ((s.apply n : ℤ) : ℚ) * 2 ^ e = signed s ((⟨n, e⟩ : Dyadic).rational) := by
  cases s with
  | negative =>
    change ((-(n : ℤ) : ℤ) : ℚ) * 2 ^ e = -(n * 2 ^ e)
    rw [Int.cast_neg, Int.cast_natCast, neg_mul]
  | positive => rfl

theorem exists_eq_apply {z : ℤ} (hz : z ≠ 0) : ∃ s : UnpackedFloat.Sign, ∃ n : ℕ, 0 < n ∧
    z = s.apply n := by
  rcases lt_or_gt_of_ne hz with hneg | hpos
  · refine ⟨.negative, z.natAbs, Int.natAbs_pos.2 hz, ?_⟩
    change z = -(z.natAbs : ℤ)
    omega
  · refine ⟨.positive, z.natAbs, Int.natAbs_pos.2 hz, ?_⟩
    change z = (z.natAbs : ℤ)
    omega

end

/-! ## Safe integers -/

/-- An integer with at most 53 bits. -/
def IsSafe (r : ℚ) : Prop := ∃ z : ℤ, r = z ∧ z.natAbs < 2 ^ 53

theorem isSafe_natCast_iff {n : ℕ} : IsSafe n ↔ n < 2 ^ 53 := by
  constructor
  · rintro ⟨z, hz, hlt⟩
    have hn : (n : ℤ) = z := by exact_mod_cast hz
    omega
  · exact fun hn => ⟨n, (Int.cast_natCast n).symm, hn⟩

theorem IsSafe.neg {r : ℚ} (h : IsSafe r) : IsSafe (-r) := by
  obtain ⟨z, rfl, hz⟩ := h
  exact ⟨-z, (Int.cast_neg z).symm, by rwa [Int.natAbs_neg]⟩

theorem IsSafe.of_signed {s : UnpackedFloat.Sign} {r : ℚ} (h : IsSafe (signed s r)) :
    IsSafe r := by
  cases s with
  | negative =>
    have hneg : IsSafe (- -r) := IsSafe.neg h
    rwa [neg_neg] at hneg
  | positive => exact h

theorem IsSafe.exists_natCast {r : ℚ} (h : IsSafe r) (hr : 0 < r) :
    ∃ n : ℕ, r = n ∧ 0 < n ∧ n < 2 ^ 53 := by
  obtain ⟨z, rfl, hz⟩ := h
  have hpos : 0 < z := Int.cast_pos.1 hr
  refine ⟨z.natAbs, ?_, by omega, hz⟩
  rw [Nat.cast_natAbs, abs_of_pos hpos]

theorem IsSafe.one_le {r : ℚ} (h : IsSafe r) (hr : 0 < r) : 1 ≤ r := by
  obtain ⟨n, rfl, hpos, -⟩ := h.exists_natCast hr
  exact Nat.one_le_cast.2 hpos

/-- A safe integer is a double. -/
theorem IsSafe.exists_held {r : ℚ} (h : IsSafe r) (hr : 0 < r) :
    ∃ d : Dyadic, d.Held ∧ d.rational = r := by
  obtain ⟨n, rfl, hpos, hn⟩ := h.exists_natCast hr
  obtain ⟨d, hd, hrational⟩ := (standsFor_ofNat_of_lt hpos hn).exists_holds hr
  exact ⟨d, hd.held, hrational⟩

/-! ## Doubles that compare equal -/

namespace Dyadic

variable {c d : Dyadic}

theorem Held.exponent_eq (h : d.Held) :
    d.exponent = max (d.significand.log2 + d.exponent - 52) (-1074) := by
  have hlo := h.lo
  have hlog : d.significand.log2 < 53 := (Nat.log2_lt h.pos.ne').2 h.lt
  rcases h.normal with hfull | hmin
  · have hlog' : 52 ≤ d.significand.log2 := (Nat.le_log2 h.pos.ne').2 hfull
    omega
  · omega

/-- What is written in front of which power of two does not matter for the position of the
leading bit. -/
theorem leading_eq (hc : 0 < c.significand) (hd : 0 < d.significand)
    (h : c.rational = d.rational) :
    c.significand.log2 + c.exponent = d.significand.log2 + d.exponent := by
  obtain ⟨hclo, hchi⟩ := log2_rational hc
  obtain ⟨hdlo, hdhi⟩ := log2_rational hd
  have hle := (zpow_lt_zpow_iff_right₀ one_lt_two).1 ((hclo.trans_eq h).trans_lt hdhi)
  have hge := (zpow_lt_zpow_iff_right₀ one_lt_two).1 ((hdlo.trans_eq h.symm).trans_lt hchi)
  omega

/-- No number is held in two ways. -/
theorem Held.eq_of_rational (hc : c.Held) (hd : d.Held) (h : c.rational = d.rational) : c = d := by
  have hexp : c.exponent = d.exponent := by
    rw [hc.exponent_eq, hd.exponent_eq, leading_eq hc.pos hd.pos h]
  obtain ⟨m, e⟩ := c
  obtain ⟨m', e'⟩ := d
  obtain rfl : e = e' := hexp
  have hm : (m : ℚ) = m' := mul_right_cancel₀ (zpow_ne_zero e two_ne_zero) h
  rw [Nat.cast_injective hm]

end Dyadic

namespace StandsFor

variable {x y : Float} {a b r : ℚ}

theorem pack_zero (s : UnpackedFloat.Sign) : StandsFor (.ofModel (.pack (.zero s))) 0 :=
  .pack (.zero s) (Binary64.rational?_zero s)

theorem pack_finite {d : Dyadic} (hd : d.Held) (s : UnpackedFloat.Sign) :
    StandsFor (.ofModel (.pack (.finite s d.significand d.exponent hd.pos)))
      (signed s d.rational) :=
  .pack (hd.canonical s) rfl

theorem pack_unpacked (h : StandsFor x r) : StandsFor (.ofModel (.pack (unpacked x))) r :=
  .pack h.canonical (by rw [← Binary64.ofFloat_eq_ofUnpacked, h.rational])

/-- **Doubles compare equal** if they stand for the same number. -/
theorem beq_iff (hx : StandsFor x a) (hy : StandsFor y b) : (x == y) = true ↔ a = b := by
  constructor
  · intro h
    have hrational := rational?_eq_of_beq h
    rw [hx.rational, hy.rational] at hrational
    exact Option.some.inj hrational
  · rintro rfl
    change (unpacked x).beq (unpacked y) = true
    obtain ⟨s, hs, rfl⟩ | ⟨s, d, hd, hs, rfl⟩ := hx.cases
    · obtain ⟨s', hs', -⟩ | ⟨s', d', hd', -, hr⟩ := hy.cases
      · rw [hs, hs']
        rfl
      · exact absurd hr.symm (signed_ne_zero s' (Dyadic.rational_pos hd'.pos))
    · obtain ⟨s', -, hr⟩ | ⟨s', d', hd', hs', hr⟩ := hy.cases
      · exact absurd hr (signed_ne_zero s (Dyadic.rational_pos hd.pos))
      · obtain ⟨rfl, hrational⟩ :=
          signed_inj s s' (Dyadic.rational_pos hd.pos) (Dyadic.rational_pos hd'.pos) hr
        obtain rfl := hd.eq_of_rational hd' hrational
        rw [hs', ← hs]
        exact beq_self_of_isFinite (isFinite_iff.2 ⟨_, hx.rational⟩)

end StandsFor

/-! ## Sums -/

/-- Shifting a significand to the left makes its exponent less. -/
theorem Dyadic.shifted_eq (d : Dyadic) (j : ℕ) :
    ((d.significand * 2 ^ j : ℕ) : ℚ) * 2 ^ (d.exponent - j) = d.rational := by
  rw [rational, zpow_sub₀ two_ne_zero, zpow_natCast]
  push_cast
  field_simp

/-- A number that a double can be is not rounded, in front of whatever power of two it is given. -/
theorem round_of_rational_eq (s : UnpackedFloat.Sign) {c d : Dyadic} (hc : 0 < c.significand)
    (hd : d.Held) (hone : 1 ≤ d.rational) (h : c.rational = d.rational) :
    UnpackedFloat.round Format.binary64 s c.significand c.exponent =
      .finite s d.significand d.exponent hd.pos := by
  have hleading : 0 ≤ c.significand.log2 + c.exponent := by
    have hlt := (h.symm ▸ hone).trans_lt (Dyadic.log2_rational hc).2
    rw [← zpow_zero (2 : ℚ), zpow_lt_zpow_iff_right₀ one_lt_two] at hlt
    omega
  have htarget : Format.binary64.targetExponent (totalExponent c.significand c.exponent) =
      c.significand.log2 + c.exponent - 52 := by
    rw [targetExponent_totalExponent]
    omega
  -- fewer than 53 bits are filled up to 53, and of more than 53 the last ones are zeros
  generalize hj : (c.exponent - (c.significand.log2 + c.exponent - 52)).toNat = j
  have hlog : (c.significand * 2 ^ j).log2 = 52 + (c.significand.log2 + j - 52) := by
    rw [log2_mul_two_pow hc]
    omega
  have hattracts : d.Attracts ((c.significand * 2 ^ j : ℕ) / (1 : ℕ) * 2 ^ (c.exponent - j)) := by
    rw [Nat.cast_one, div_one, c.shifted_eq, h]
    exact Dyadic.attracts_rational hd.pos
  have hround := roundWithAccuracy_of_attracts s Nat.one_pos (by rwa [Nat.div_one]) (by omega) hd
    hattracts
  rw [UnpackedFloat.round, htarget, UnpackedFloat.decreaseExponent, hj, Nat.shiftLeft_eq]
  rwa [accuracyOfFraction_one, Nat.div_one] at hround

theorem normalize_apply (s z : UnpackedFloat.Sign) {n : ℕ} (hn : 0 < n) (e : ℤ) :
    UnpackedFloat.normalize Format.binary64 (s.apply n) e z =
      UnpackedFloat.round Format.binary64 s n e := by
  cases s with
  | negative =>
    have hlt : UnpackedFloat.Sign.negative.apply n < 0 := by
      change -(n : ℤ) < 0
      omega
    rw [UnpackedFloat.normalize, Int.compare_eq_lt.2 hlt]
    change UnpackedFloat.round Format.binary64 .negative (- -(n : ℤ)).toNat e = _
    rw [neg_neg, Int.toNat_natCast]
  | positive =>
    have hgt : 0 < UnpackedFloat.Sign.positive.apply n := by
      change 0 < (n : ℤ)
      omega
    rw [UnpackedFloat.normalize, Int.compare_eq_gt.2 hgt]
    rfl

/-- What is to be rounded and is a safe integer stays what it is. -/
theorem standsFor_normalize {z e : ℤ} (s : UnpackedFloat.Sign) (h : IsSafe (z * 2 ^ e)) :
    StandsFor (.ofModel (.pack (UnpackedFloat.normalize Format.binary64 z e s)))
      (z * 2 ^ e) := by
  by_cases hz : z = 0
  · subst hz
    rw [Int.cast_zero, zero_mul]
    exact .pack_zero s
  · obtain ⟨s', n, hn, rfl⟩ := exists_eq_apply hz
    rw [apply_mul_zpow] at h ⊢
    have hpos : 0 < (⟨n, e⟩ : Dyadic).rational := Dyadic.rational_pos hn
    obtain ⟨d, hd, hrational⟩ := h.of_signed.exists_held hpos
    have hone := h.of_signed.one_le hpos
    rw [normalize_apply s' s hn, ← hrational]
    rw [← hrational] at hone
    have hround := round_of_rational_eq s' (c := ⟨n, e⟩) hn hd hone hrational.symm
    dsimp only at hround
    rw [hround]
    exact .pack_finite hd s'

/-- A significand that is brought to a lesser exponent stands for the same number. -/
theorem shifted_mul_zpow (s : UnpackedFloat.Sign) (d : Dyadic) {e : ℤ} (he : e ≤ d.exponent) :
    ((s.apply (d.significand <<< (d.exponent - e).toNat : ℕ) : ℤ) : ℚ) * 2 ^ e =
      signed s d.rational := by
  have hexp : d.exponent - (d.exponent - e).toNat = e := by omega
  have hshift := d.shifted_eq (d.exponent - e).toNat
  rw [hexp] at hshift
  rw [apply_mul_zpow, Dyadic.rational, Nat.shiftLeft_eq, hshift]

namespace StandsFor

variable {x y : Float} {a b : ℚ}

/-- **A sum is exact** if it is a safe integer. -/
theorem add (hx : StandsFor x a) (hy : StandsFor y b) (h : IsSafe (a + b)) :
    StandsFor (x + y) (a + b) := by
  change StandsFor (.ofModel (.pack (UnpackedFloat.add Format.binary64 (unpacked x)
    (unpacked y)))) _
  obtain ⟨s, hs, rfl⟩ | ⟨s, d, hd, hs, rfl⟩ := hx.cases
  · rw [zero_add]
    obtain ⟨s', hs', rfl⟩ | ⟨s', d', hd', hs', -⟩ := hy.cases
    · rw [hs, hs']
      change StandsFor (.ofModel (.pack (if (s == s') = true then .zero s else .zero .positive))) 0
      split <;> exact .pack_zero _
    · have hsum : UnpackedFloat.add Format.binary64 (unpacked x) (unpacked y) = unpacked y := by
        rw [hs, hs']
        rfl
      rw [hsum]
      exact hy.pack_unpacked
  · obtain ⟨s', hs', rfl⟩ | ⟨s', d', hd', hs', rfl⟩ := hy.cases
    · have hsum : UnpackedFloat.add Format.binary64 (unpacked x) (unpacked y) = unpacked x := by
        rw [hs, hs']
        rfl
      rw [add_zero, hsum]
      exact hx.pack_unpacked
    · -- both significands are brought to the lesser exponent
      rw [← shifted_mul_zpow s d (min_le_left d.exponent d'.exponent),
        ← shifted_mul_zpow s' d' (min_le_right d.exponent d'.exponent), ← add_mul,
        ← Int.cast_add] at h ⊢
      rw [hs, hs']
      exact standsFor_normalize .positive h

/-- **A difference is exact** if it is a safe integer. -/
theorem sub (hx : StandsFor x a) (hy : StandsFor y b) (h : IsSafe (a - b)) :
    StandsFor (x - y) (a - b) := by
  rw [sub_eq_add_neg] at h ⊢
  rw [float_sub_eq]
  exact hx.add hy.neg h

/-! ## Products and quotients -/

/-- **A product of safe integers is exact** if it is one. -/
theorem mul (hx : StandsFor x a) (hy : StandsFor y b) (ha : IsSafe a) (hb : IsSafe b)
    (h : IsSafe (a * b)) : StandsFor (x * y) (a * b) := by
  change StandsFor (.ofModel (.pack (UnpackedFloat.mul Format.binary64 (unpacked x)
    (unpacked y)))) _
  obtain ⟨s, hs, rfl⟩ | ⟨s, c, hc, hs, rfl⟩ := hx.cases
  · rw [zero_mul]
    obtain ⟨s', hs', -⟩ | ⟨s', d, hd, hs', -⟩ := hy.cases <;> rw [hs, hs'] <;> exact .pack_zero _
  · obtain ⟨s', hs', rfl⟩ | ⟨s', d, hd, hs', rfl⟩ := hy.cases
    · rw [mul_zero, hs, hs']
      exact .pack_zero _
    · have hcpos := Dyadic.rational_pos hc.pos
      have hdpos := Dyadic.rational_pos hd.pos
      rw [signed_mul] at h ⊢
      obtain ⟨q, hq, hrational⟩ := h.of_signed.exists_held (mul_pos hcpos hdpos)
      rw [hs, hs', hc.mul hd s s' (ha.of_signed.one_le hcpos) (hb.of_signed.one_le hdpos) hq
        (hrational ▸ Dyadic.attracts_rational hq.pos), ← hrational]
      exact .pack_finite hq _

/-- **A quotient of safe integers is exact** if it is one. -/
theorem div (hx : StandsFor x a) (hy : StandsFor y b) (ha : IsSafe a) (hb : IsSafe b)
    (hzero : b ≠ 0) (h : IsSafe (a / b)) : StandsFor (x / y) (a / b) := by
  change StandsFor (.ofModel (.pack (UnpackedFloat.div Format.binary64 (unpacked x)
    (unpacked y)))) _
  obtain ⟨s', hs', rfl⟩ | ⟨s', d, hd, hs', rfl⟩ := hy.cases
  · exact absurd rfl hzero
  · obtain ⟨s, hs, rfl⟩ | ⟨s, c, hc, hs, rfl⟩ := hx.cases
    · rw [zero_div, hs, hs']
      exact .pack_zero _
    · have hcpos := Dyadic.rational_pos hc.pos
      have hdpos := Dyadic.rational_pos hd.pos
      have hmax : d.rational ≤ 2 ^ (1021 : ℤ) := by
        obtain ⟨n, hn, -, hlt⟩ := hb.of_signed.exists_natCast hdpos
        rw [hn]
        calc (n : ℚ) ≤ (2 ^ 53 : ℕ) := Nat.cast_le.2 hlt.le
          _ = 2 ^ (53 : ℤ) := by norm_num
          _ ≤ 2 ^ (1021 : ℤ) := zpow_le_zpow_right₀ one_le_two (by decide)
      rw [signed_div] at h ⊢
      obtain ⟨q, hq, hrational⟩ := h.of_signed.exists_held (div_pos hcpos hdpos)
      rw [hs, hs', hc.div hd s s' (ha.of_signed.one_le hcpos) (hb.of_signed.one_le hdpos) hmax hq
        (hrational ▸ Dyadic.attracts_rational hq.pos), ← hrational]
      exact .pack_finite hq _

end StandsFor

end HiddenEquation.Decimal
