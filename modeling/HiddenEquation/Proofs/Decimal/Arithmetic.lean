import HiddenEquation.Proofs.Decimal.Nearest
import HiddenEquation.Proofs.Decimal.Shortest
import Mathlib.Tactic.FieldSimp

/-!
# Products and quotients of doubles

The product and the quotient of two doubles are rounded once.  So each is the double to which the
exact product or quotient is nearest, in the sense of `Dyadic.Attracts`, and no product that stays
below the greatest double is infinite.

* `eq_of_ofFloat` : a finite double is determined by its sign, significand and exponent.
* `Holds.mul`, `Holds.div` : a product, a quotient is the double nearest to the exact one.
* `Holds.isInf_mul` : a product that is not too great is finite.
-/

namespace HiddenEquation.Decimal

open Float.Model

/-! ## What determines a double -/

namespace Binary64

/-- The bits of a finite double, put together from its sign, significand and exponent. -/
def word (negative : Bool) (d : Dyadic) : ℕ :=
  (if negative then 2 ^ 63 else 0) +
    if d.significand < 2 ^ 52 then d.significand
    else (d.exponent + 1075).toNat * 2 ^ 52 + (d.significand - 2 ^ 52)

theorem word_of_lt {d : Dyadic} (negative : Bool) (h : d.significand < 2 ^ 52) :
    word negative d = (if negative then 2 ^ 63 else 0) + d.significand := by
  rw [word, if_pos h]

theorem word_of_le {d : Dyadic} (negative : Bool) (h : 2 ^ 52 ≤ d.significand) :
    word negative d = (if negative then 2 ^ 63 else 0) +
      ((d.exponent + 1075).toNat * 2 ^ 52 + (d.significand - 2 ^ 52)) := by
  rw [word, if_neg (Nat.not_lt.2 h)]

/-- Of the bits of a finite double nothing is lost. -/
theorem eq_word {bits : ℕ} (hbits : bits < 2 ^ 64) {negative : Bool} {d : Dyadic}
    (h : ofBits bits = .finite negative d) : bits = word negative d := by
  have hsign : (if decide (bits / 0x8000000000000000 % 2 = 1) = true then 2 ^ 63 else 0) =
      bits / 2 ^ 63 * 2 ^ 63 := by
    by_cases hbit : bits / 0x8000000000000000 % 2 = 1
    · rw [decide_eq_true hbit, if_pos rfl]
      omega
    · rw [decide_eq_false hbit, if_neg Bool.false_ne_true]
      omega
  unfold ofBits at h
  dsimp only at h
  split at h
  · split at h <;> cases h
  · split at h
    · rename_i hexp
      cases h
      rw [word_of_lt _ (Nat.mod_lt _ (by decide)), hsign]
      simp only [hiddenBit] at hexp ⊢
      omega
    · rename_i hmax hexp
      cases h
      rw [word_of_le _ (Nat.le_add_right _ _), hsign]
      simp only [hiddenBit, minExponent] at hmax hexp ⊢
      omega

end Binary64

theorem toBits_inj {x y : Float} (h : x.toBits = y.toBits) : x = y := by
  obtain ⟨⟨bits, valid⟩⟩ := x
  obtain ⟨⟨bits', valid'⟩⟩ := y
  obtain rfl : bits = bits' := h
  rfl

/-- A finite double is determined by its sign, significand and exponent. -/
theorem eq_of_ofFloat {x y : Float} {negative : Bool} {d : Dyadic}
    (hx : Binary64.ofFloat x = .finite negative d) (hy : Binary64.ofFloat y = .finite negative d) :
    x = y :=
  toBits_inj (UInt64.toNat_inj.1
    ((Binary64.eq_word x.toBits.toNat_lt hx).trans (Binary64.eq_word y.toBits.toNat_lt hy).symm))

/-- The significand and the exponent that are read off the bits are those of a double. -/
theorem eq_zero_or_held_of_ofFloat {x : Float} {negative : Bool} {d : Dyadic}
    (h : Binary64.ofFloat x = .finite negative d) : d = ⟨0, -1074⟩ ∨ d.Held := by
  unfold Binary64.ofFloat Binary64.ofBits at h
  dsimp only at h
  split at h
  · split at h <;> cases h
  · split at h
    · cases h
      by_cases hzero : x.toBits.toNat % Binary64.hiddenBit = 0
      · rw [hzero]
        exact Or.inl rfl
      · right
        refine ⟨?_, ?_, ?_, ?_, Or.inr rfl⟩ <;>
          simp only [Binary64.hiddenBit, Binary64.minExponent] at * <;> omega
    · cases h
      right
      refine ⟨?_, ?_, ?_, ?_, Or.inl ?_⟩ <;>
        simp only [Binary64.hiddenBit, Binary64.minExponent] at * <;> omega

/-! ## Rounding to the nearest double -/

namespace Dyadic

variable {d : Dyadic}

/-- Whether a number is nearest to the double can be read off in quarters of the last place. -/
theorem attracts_quarters_iff (d : Dyadic) (y : ℚ) : d.Attracts (y * 2 ^ (d.exponent - 2)) ↔
    if d.significand % 2 = 0 then
      ((4 * d.significand - d.reach : ℕ) : ℚ) ≤ y ∧ y ≤ (4 * d.significand + 2 : ℕ)
    else ((4 * d.significand - d.reach : ℕ) : ℚ) < y ∧ y < (4 * d.significand + 2 : ℕ) := by
  have hpos : (0 : ℚ) < 2 ^ (d.exponent - 2) := zpow_pos two_pos _
  simp only [Attracts, lowerEnd, upperEnd, mul_le_mul_iff_of_pos_right hpos,
    mul_lt_mul_iff_of_pos_right hpos]

/-- A quotient in units of the last place is rounded to the significand. -/
theorem roundDiv_of_attracts {n m : ℕ} (hm : 0 < m) (hpos : 0 < d.significand)
    (h : d.Attracts ((n : ℚ) / m * 2 ^ d.exponent)) : roundDiv n m = d.significand := by
  have hm' : (0 : ℚ) < m := Nat.cast_pos.2 hm
  have hunits : (n : ℚ) / m * 2 ^ d.exponent = (4 * n : ℕ) / m * 2 ^ (d.exponent - 2) := by
    rw [zpow_sub₀ two_ne_zero]
    push_cast
    ring
  have hreach := d.reach_le
  rw [hunits, attracts_quarters_iff, le_div_iff₀ hm', div_le_iff₀ hm', lt_div_iff₀ hm',
    div_lt_iff₀ hm'] at h
  have hle : (4 * d.significand - 2) * m ≤ (4 * d.significand - d.reach) * m :=
    Nat.mul_le_mul_right m (by omega)
  rw [Nat.sub_mul, Nat.mul_assoc] at hle
  split at h
  · rename_i heven
    obtain ⟨hlo, hhi⟩ := h
    norm_cast at hlo hhi
    rw [Nat.add_mul, Nat.mul_assoc] at hhi
    exact roundDiv_eq_of_near hm (by omega) (by omega) (by omega)
  · obtain ⟨hlo, hhi⟩ := h
    norm_cast at hlo hhi
    rw [Nat.add_mul, Nat.mul_assoc] at hhi
    exact roundDiv_eq_of_near hm (by omega) (by omega) (fun _ => by omega)

/-- Just below a power of two the last place is half as great, and the quotient is rounded up to
the power. -/
theorem roundDiv_of_attracts_below {n m : ℕ} (hm : 0 < m) (hsig : d.significand = 2 ^ 52)
    (hexp : d.exponent ≠ -1074) (hlt : n < 2 ^ 53 * m)
    (h : d.Attracts ((n : ℚ) / m * 2 ^ (d.exponent - 1))) : roundDiv n m = 2 ^ 53 := by
  have hm' : (0 : ℚ) < m := Nat.cast_pos.2 hm
  have hunits : (n : ℚ) / m * 2 ^ (d.exponent - 1) = (2 * n : ℕ) / m * 2 ^ (d.exponent - 2) := by
    rw [zpow_sub₀ two_ne_zero, zpow_sub₀ two_ne_zero]
    push_cast
    ring
  have hreach : d.reach = 1 := if_pos ⟨hsig, hexp⟩
  rw [hunits, attracts_quarters_iff, le_div_iff₀ hm', hsig, hreach, if_pos (by decide)] at h
  have hlo := h.1
  norm_cast at hlo
  exact roundDiv_eq_of_near hm (by omega) (by omega) (by omega)

/-- A quotient with `k` bits too many, between powers of two. -/
theorem two_zpow_le_quotient {n m k : ℕ} {e : ℤ} (hm : 0 < m) (hlog : (n / m).log2 = 52 + k) :
    (2 : ℚ) ^ (e + k + 52) ≤ (n : ℚ) / m * 2 ^ e ∧ (n : ℚ) / m * 2 ^ e < 2 ^ (e + k + 53) := by
  obtain ⟨hlo, hhi⟩ := quotient_bounds hlog
  have hm' : (0 : ℚ) < m := Nat.cast_pos.2 hm
  have htwo := zpow_pos (two_pos : (0 : ℚ) < 2) e
  have hsplit (i : ℕ) : (2 : ℚ) ^ (e + k + i) = 2 ^ i * 2 ^ k * 2 ^ e := by
    rw [zpow_add₀ two_ne_zero, zpow_add₀ two_ne_zero, zpow_natCast, zpow_natCast]
    ring
  rw [← Nat.mul_assoc, Nat.mul_right_comm] at hlo hhi
  refine ⟨(hsplit 52).trans_le (mul_le_mul_of_nonneg_right ?_ htwo.le),
    (mul_lt_mul_of_pos_right ?_ htwo).trans_eq (hsplit 53).symm⟩
  · rw [le_div_iff₀ hm']
    exact_mod_cast hlo
  · rw [div_lt_iff₀ hm']
    exact_mod_cast hhi

/-- What is nearest to a double has as many bits as the double, or one less just below a power of
two. -/
theorem exponent_of_attracts {n m k : ℕ} {e : ℤ} (hm : 0 < m) (hlog : (n / m).log2 = 52 + k)
    (hlt : d.significand < 2 ^ 53) (hfull : 2 ^ 52 ≤ d.significand)
    (h : d.Attracts ((n : ℚ) / m * 2 ^ e)) :
    d.exponent = e + k ∨ d.exponent - 1 = e + k ∧ d.significand = 2 ^ 52 := by
  obtain ⟨hlo, hhi⟩ := two_zpow_le_quotient (e := e) hm hlog
  have hreach := d.reach_le
  have hpos : (0 : ℚ) < 2 ^ (d.exponent - 2) := zpow_pos two_pos _
  have hupper : (2 : ℚ) ^ (e + k + 52) < 2 ^ (d.exponent - 2 + (55 : ℕ)) := by
    refine (hlo.trans h.le_upperEnd).trans_lt ?_
    rw [two_zpow_add_natCast, upperEnd, mul_lt_mul_iff_of_pos_right hpos, Nat.cast_lt]
    omega
  have hlower (i : ℕ) (hi : 2 ^ i ≤ 4 * d.significand - d.reach) :
      (2 : ℚ) ^ (d.exponent - 2 + i) < 2 ^ (e + k + 53) := by
    refine lt_of_le_of_lt ?_ (h.lowerEnd_le.trans_lt hhi)
    rw [two_zpow_add_natCast, lowerEnd, mul_le_mul_iff_of_pos_right hpos, Nat.cast_le]
    exact hi
  have hmost := (zpow_lt_zpow_iff_right₀ one_lt_two).1 hupper
  have hleast := (zpow_lt_zpow_iff_right₀ one_lt_two).1 (hlower 53 (by omega))
  by_cases hpower : d.significand = 2 ^ 52
  · omega
  · have hleast' := (zpow_lt_zpow_iff_right₀ one_lt_two).1 (hlower 54 (by omega))
    omega

/-- What is not tiny is nearest to a double with a full significand. -/
theorem Held.full_of_attracts (hd : d.Held) {q : ℚ} (h : d.Attracts q) {e : ℤ} (he : -1074 ≤ e)
    (hq : 2 ^ (e + 52) ≤ q) : 2 ^ 52 ≤ d.significand := by
  rcases hd.normal with hfull | hmin
  · exact hfull
  · have hle : (2 : ℚ) ^ (d.exponent - 2 + (54 : ℕ)) ≤ d.upperEnd := by
      refine (zpow_le_zpow_right₀ one_le_two ?_).trans (hq.trans h.le_upperEnd)
      omega
    rw [two_zpow_add_natCast, upperEnd, mul_le_mul_iff_of_pos_right (zpow_pos two_pos _),
      Nat.cast_le] at hle
    omega

end Dyadic

/-- **What is nearest to a double is rounded to it.** -/
theorem roundWithAccuracy_of_attracts (s : UnpackedFloat.Sign) {D : Dyadic} {n m k : ℕ} {e : ℤ}
    (hm : 0 < m) (hlog : (n / m).log2 = 52 + k) (he : -1074 ≤ e + k) (hD : D.Held)
    (h : D.Attracts ((n : ℚ) / m * 2 ^ e)) :
    UnpackedFloat.roundWithAccuracy Format.binary64 s (n / m) e
        (UnpackedFloat.accuracyOfFraction (n % m) m) =
      .finite s D.significand D.exponent hD.pos := by
  have hm' : 0 < m * 2 ^ k := Nat.mul_pos hm (Nat.two_pow_pos k)
  have hfull : 2 ^ 52 ≤ D.significand :=
    hD.full_of_attracts h he (Dyadic.two_zpow_le_quotient hm hlog).1
  have hshift : (n : ℚ) / m * 2 ^ e = n / (m * 2 ^ k : ℕ) * 2 ^ (e + k) := by
    rw [zpow_add₀ two_ne_zero, zpow_natCast]
    push_cast
    field_simp
  have hexp := Dyadic.exponent_of_attracts hm hlog hD.lt hfull h
  rw [hshift] at h
  rcases hexp with hexp | ⟨hexp, hpower⟩
  · rw [← hexp] at h
    have hround := Dyadic.roundDiv_of_attracts hm' hD.pos h
    have hlog' : (roundDiv n (m * 2 ^ k)).log2 = 52 + 0 := by
      rw [hround, Nat.log2_eq_iff hD.pos.ne']
      exact ⟨hfull, hD.lt⟩
    rw [roundWithAccuracy_div_eq s hm hlog he hlog' (by rw [hround]; omega)]
    refine finite_congr s ?_ ?_
    · rw [hround, Nat.pow_zero, Nat.div_one]
    · omega
  · -- the rounding carries into one bit more
    rw [← hexp] at h
    have hround :=
      Dyadic.roundDiv_of_attracts_below hm' hpower (by omega) (quotient_bounds hlog).2 h
    have hlog' : (roundDiv n (m * 2 ^ k)).log2 = 52 + 1 := by rw [hround, Nat.log2_two_pow]
    rw [roundWithAccuracy_div_eq s hm hlog he hlog' (by rw [hround]; omega)]
    refine finite_congr s ?_ ?_
    · rw [hround, hpower]
      rfl
    · omega

/-! ## The greatest double

Half-way beyond it lie `2 ^ 54 - 1` halves of its last place. -/

section

variable {n k : ℕ} {e : ℤ}

theorem exponent_le_of_lt (hlog : n.log2 = 52 + k)
    (h : (n : ℚ) * 2 ^ e < (2 ^ 54 - 1) * 2 ^ (970 : ℤ)) : e + k ≤ 971 := by
  have hlo := (Dyadic.two_zpow_le_quotient (e := e) Nat.one_pos (by rwa [Nat.div_one])).1
  rw [Nat.cast_one, div_one] at hlo
  have hlt : (2 : ℚ) ^ (e + k + 52) < 2 ^ ((970 : ℤ) + (54 : ℕ)) := by
    refine (hlo.trans_lt h).trans_le ?_
    rw [two_zpow_add_natCast, mul_le_mul_iff_of_pos_right (zpow_pos two_pos _)]
    norm_num
  have := (zpow_lt_zpow_iff_right₀ one_lt_two).1 hlt
  omega

/-- With the greatest exponent the significand is not rounded up to `2 ^ 53`. -/
theorem roundDiv_lt_of_lt (h : (n : ℚ) * 2 ^ e < (2 ^ 54 - 1) * 2 ^ (970 : ℤ))
    (he : e + k = 971) : roundDiv n (2 ^ k) < 2 ^ 53 := by
  have hunit : (2 : ℚ) ^ (970 : ℤ) * 2 = (2 ^ k : ℕ) * 2 ^ e := by
    rw [← two_zpow_add_natCast, he, ← zpow_add_one₀ two_ne_zero]
    rfl
  have hlt : 2 * (n : ℚ) + (2 ^ k : ℕ) < 2 ^ 54 * (2 ^ k : ℕ) := by
    apply lt_of_mul_lt_mul_right _ (zpow_pos (two_pos : (0 : ℚ) < 2) e).le
    linarith
  have hlt' : 2 * n + 2 ^ k < 2 ^ 54 * 2 ^ k := by exact_mod_cast hlt
  have hnear : 2 * (roundDiv n (2 ^ k) * 2 ^ k) ≤ 2 * n + 2 ^ k :=
    (two_mul_roundDiv_mul_le (Nat.two_pow_pos k)).1
  apply Nat.lt_of_mul_lt_mul_right (a := 2 ^ k)
  omega

end

/-! ## Products and quotients of numbers whose parts lie apart

The sign takes no part in the rounding.
-/

namespace Dyadic

variable {a b d : Dyadic}

/-- A number that is not less than one has a full significand. -/
theorem Held.full (h : d.Held) (hone : 1 ≤ d.rational) :
    2 ^ 52 ≤ d.significand ∧ -52 ≤ d.exponent := by
  have hexp : -52 ≤ d.exponent := by
    have hlt : (2 : ℚ) ^ (0 : ℤ) < 2 ^ (d.exponent + 53) := by
      calc (2 : ℚ) ^ (0 : ℤ) ≤ d.significand * 2 ^ d.exponent := hone
        _ < (2 ^ 53 : ℕ) * 2 ^ d.exponent :=
            mul_lt_mul_of_pos_right (Nat.cast_lt.2 h.lt) (zpow_pos two_pos _)
        _ = 2 ^ (d.exponent + 53) := (two_zpow_add_natCast d.exponent 53).symm
    have := (zpow_lt_zpow_iff_right₀ one_lt_two).1 hlt
    omega
  exact ⟨h.normal.resolve_right (by omega), hexp⟩

theorem exists_log2_mul (ha : 2 ^ 52 ≤ a.significand) (hb : 2 ^ 52 ≤ b.significand) :
    ∃ k, 52 ≤ k ∧ (a.significand * b.significand).log2 = 52 + k := by
  have hle : 2 ^ 52 * 2 ^ 52 ≤ a.significand * b.significand := Nat.mul_le_mul ha hb
  rw [← Nat.pow_add] at hle
  have hlog := (Nat.le_log2 (by omega)).2 hle
  exact ⟨(a.significand * b.significand).log2 - 52, by omega, by omega⟩

theorem rational_mul (a b : Dyadic) : a.rational * b.rational =
    (a.significand * b.significand : ℕ) * 2 ^ (a.exponent + b.exponent) := by
  rw [rational, rational, zpow_add₀ two_ne_zero]
  push_cast
  ring

/-- A product is rounded to what the exact product is nearest to. -/
theorem Held.mul (ha : a.Held) (hb : b.Held) (s s' : UnpackedFloat.Sign) (hone : 1 ≤ a.rational)
    (hone' : 1 ≤ b.rational) (hd : d.Held) (h : d.Attracts (a.rational * b.rational)) :
    UnpackedFloat.mul Format.binary64 (.finite s a.significand a.exponent ha.pos)
        (.finite s' b.significand b.exponent hb.pos) =
      .finite (s * s') d.significand d.exponent hd.pos := by
  obtain ⟨hafull, halo⟩ := ha.full hone
  obtain ⟨hbfull, hblo⟩ := hb.full hone'
  obtain ⟨k, hk, hlog⟩ := exists_log2_mul hafull hbfull
  rw [rational_mul] at h
  have hround := roundWithAccuracy_of_attracts (s * s') (e := a.exponent + b.exponent) Nat.one_pos
    (by rwa [Nat.div_one]) (by omega) hd (by rwa [Nat.cast_one, div_one])
  rwa [accuracyOfFraction_one, Nat.div_one] at hround

/-- Full significands are divided with 53 bits more. -/
theorem Held.div_eq (ha : a.Held) (hb : b.Held) (s s' : UnpackedFloat.Sign)
    (hfull : 2 ^ 52 ≤ a.significand) (hfull' : 2 ^ 52 ≤ b.significand)
    (he : -1021 ≤ a.exponent - b.exponent) :
    UnpackedFloat.div Format.binary64 (.finite s a.significand a.exponent ha.pos)
        (.finite s' b.significand b.exponent hb.pos) =
      UnpackedFloat.roundWithAccuracy Format.binary64 (s / s')
        (a.significand * 2 ^ 53 / b.significand) (a.exponent - b.exponent - 53)
        (UnpackedFloat.accuracyOfFraction (a.significand * 2 ^ 53 % b.significand)
          b.significand) := by
  have halog : a.significand.log2 = 52 := (Nat.log2_eq_iff ha.pos.ne').2 ⟨hfull, ha.lt⟩
  have hblog : b.significand.log2 = 52 := (Nat.log2_eq_iff hb.pos.ne').2 ⟨hfull', hb.lt⟩
  have htarget : min (a.exponent - b.exponent) (Format.binary64.targetExponent
      (totalExponent a.significand a.exponent - totalExponent b.significand b.exponent)) =
      a.exponent - b.exponent - 53 := by
    rw [Format.targetExponent, totalExponent, totalExponent, halog, hblog,
      show (Format.binary64.mantissaBits : Int) = 53 from rfl,
      show Format.binary64.minExponent = -1074 from rfl]
    omega
  have hshift : (a.exponent - b.exponent - (a.exponent - b.exponent - 53)).toNat = 53 := by omega
  rw [div_finite, UnpackedFloat.divCore]
  dsimp only
  rw [htarget, hshift, Nat.shiftLeft_eq]

/-- A quotient is rounded to what the exact quotient is nearest to. -/
theorem Held.div (ha : a.Held) (hb : b.Held) (s s' : UnpackedFloat.Sign) (hone : 1 ≤ a.rational)
    (hone' : 1 ≤ b.rational) (hmax : b.rational ≤ 2 ^ (1021 : ℤ)) (hd : d.Held)
    (h : d.Attracts (a.rational / b.rational)) :
    UnpackedFloat.div Format.binary64 (.finite s a.significand a.exponent ha.pos)
        (.finite s' b.significand b.exponent hb.pos) =
      .finite (s / s') d.significand d.exponent hd.pos := by
  obtain ⟨hafull, halo⟩ := ha.full hone
  obtain ⟨hbfull, hblo⟩ := hb.full hone'
  have hblt := hb.lt
  have hbexp : b.exponent ≤ 969 := by
    have hle : (2 : ℚ) ^ (b.exponent + (52 : ℕ)) ≤ 2 ^ (1021 : ℤ) := by
      refine le_trans ?_ hmax
      rw [two_zpow_add_natCast, rational]
      exact mul_le_mul_of_nonneg_right (Nat.cast_le.2 hbfull) (zpow_pos two_pos _).le
    have := (zpow_le_zpow_iff_right₀ one_lt_two).1 hle
    omega
  obtain ⟨k, hlog⟩ : ∃ k, (a.significand * 2 ^ 53 / b.significand).log2 = 52 + k := by
    have hle : 2 ^ 52 ≤ a.significand * 2 ^ 53 / b.significand := by
      rw [Nat.le_div_iff_mul_le hb.pos]
      omega
    have hlog := (Nat.le_log2 (by omega)).2 hle
    exact ⟨(a.significand * 2 ^ 53 / b.significand).log2 - 52, by omega⟩
  have hquotient : a.rational / b.rational = (a.significand * 2 ^ 53 : ℕ) / b.significand *
      2 ^ (a.exponent - b.exponent - 53) := by
    rw [rational, rational, zpow_sub₀ two_ne_zero, zpow_sub₀ two_ne_zero]
    push_cast
    field_simp
  rw [hquotient] at h
  rw [ha.div_eq hb s s' hafull hbfull (by omega)]
  exact roundWithAccuracy_of_attracts _ hb.pos hlog (by omega) hd h

end Dyadic

/-! ## What a double holds -/

/-- The double is the positive number. -/
structure Holds (x : Float) (d : Dyadic) : Prop where
  held : d.Held
  unpacked : unpacked x = .finite .positive d.significand d.exponent held.pos

theorem Dyadic.Held.canonical {d : Dyadic} (h : d.Held) (s : UnpackedFloat.Sign) :
    Canonical (.finite s d.significand d.exponent h.pos) :=
  .finite s h.pos h.lt h.lo h.hi h.normal

/-- A double that stands for a number is a zero of either sign, or holds the number. -/
theorem StandsFor.cases {x : Float} {r : ℚ} (h : StandsFor x r) :
    (∃ s, unpacked x = .zero s ∧ r = 0) ∨ ∃ s d, ∃ hd : Dyadic.Held d,
      unpacked x = .finite s d.significand d.exponent hd.pos ∧ r = signed s d.rational := by
  obtain ⟨hcanonical, hrational⟩ := h
  rw [Binary64.ofFloat_eq_ofUnpacked] at hrational
  generalize unpacked x = q at hcanonical hrational
  cases hcanonical with
  | notANumber => cases hrational
  | infinity s => cases hrational
  | zero s =>
    rw [Binary64.rational?_zero, Option.some.injEq] at hrational
    exact Or.inl ⟨s, rfl, hrational.symm⟩
  | @finite s m e hpos hm hlo hhi hnormal =>
    exact Or.inr ⟨s, ⟨m, e⟩, ⟨hpos, hm, hlo, hhi, hnormal⟩, rfl, (Option.some.inj hrational).symm⟩

theorem StandsFor.exists_holds {x : Float} {r : ℚ} (h : StandsFor x r) (hr : 0 < r) :
    ∃ d, Holds x d ∧ d.rational = r := by
  obtain ⟨s, -, rfl⟩ | ⟨s, d, hd, hs, rfl⟩ := h.cases
  · exact absurd hr (lt_irrefl 0)
  · cases s with
    | positive => exact ⟨d, ⟨hd, hs⟩, rfl⟩
    | negative => exact absurd (neg_pos.1 hr) (Dyadic.rational_pos hd.pos).not_gt

namespace Holds

variable {x y : Float} {a b d : Dyadic}

/-- Its sign, significand and exponent, also if it is negated. -/
theorem ofFloat_signed (h : Holds x d) (negative : Bool) :
    Binary64.ofFloat (if negative then -x else x) = .finite negative d := by
  cases negative with
  | false =>
    rw [if_neg Bool.false_ne_true, Binary64.ofFloat_eq_ofUnpacked, h.unpacked]
    rfl
  | true =>
    have hcanonical : Canonical (Decimal.unpacked x) := by
      rw [h.unpacked]
      exact h.held.canonical _
    rw [if_pos rfl, Binary64.ofFloat_eq_ofUnpacked]
    change Binary64.ofUnpacked (Decimal.unpacked x.neg) = _
    rw [unpacked_neg hcanonical, h.unpacked]
    rfl

theorem ofModel_pack {q : UnpackedFloat} (hd : d.Held)
    (h : q = .finite .positive d.significand d.exponent hd.pos) :
    Holds (.ofModel (.pack q)) d := by
  subst h
  exact ⟨hd, unpacked_ofModel_pack (hd.canonical _)⟩

/-! ## Products -/

theorem mul_eq (hx : Holds x a) (hy : Holds y b) :
    x * y = .ofModel (.pack (UnpackedFloat.roundWithAccuracy Format.binary64 .positive
      (a.significand * b.significand) (a.exponent + b.exponent) .exact)) := by
  change Float.ofModel (.pack (UnpackedFloat.mul Format.binary64 (Decimal.unpacked x)
    (Decimal.unpacked y))) = _
  rw [hx.unpacked, hy.unpacked]
  rfl

/-- **A product** is the double to which the exact product is nearest. -/
theorem mul (hx : Holds x a) (hy : Holds y b) (ha : 1 ≤ a.rational) (hb : 1 ≤ b.rational)
    (hd : d.Held) (h : d.Attracts (a.rational * b.rational)) : Holds (x * y) d := by
  apply ofModel_pack (q := UnpackedFloat.mul Format.binary64 (Decimal.unpacked x)
    (Decimal.unpacked y)) hd
  rw [hx.unpacked, hy.unpacked]
  exact hx.held.mul hy.held .positive .positive ha hb hd h

/-- **A product is finite** if the exact product is less than what lies half-way beyond the
greatest double. -/
theorem isInf_mul (hx : Holds x a) (hy : Holds y b) (ha : 1 ≤ a.rational) (hb : 1 ≤ b.rational)
    (hmax : a.rational * b.rational < (2 ^ 54 - 1) * 2 ^ (970 : ℤ)) : (x * y).isInf = false := by
  obtain ⟨hafull, halo⟩ := hx.held.full ha
  obtain ⟨hbfull, hblo⟩ := hy.held.full hb
  obtain ⟨k, hk, hlog⟩ := Dyadic.exists_log2_mul hafull hbfull
  rw [Dyadic.rational_mul] at hmax
  have hexp := exponent_le_of_lt hlog hmax
  have hround := roundDiv_lt_of_lt (k := k) hmax
  obtain ⟨m, e, hpos, heq, hcanonical, -, -⟩ := exists_roundWithAccuracy .positive hlog
    (e := a.exponent + b.exponent) (by omega) (by omega)
  rw [hx.mul_eq hy, heq]
  change (Decimal.unpacked (.ofModel (.pack (.finite .positive m e hpos)))).isInf = false
  rw [unpacked_ofModel_pack hcanonical]
  rfl

/-! ## Quotients -/

/-- **A quotient** is the double to which the exact quotient is nearest. -/
theorem div (hx : Holds x a) (hy : Holds y b) (ha : 1 ≤ a.rational) (hb : 1 ≤ b.rational)
    (hmax : b.rational ≤ 2 ^ (1021 : ℤ)) (hd : d.Held)
    (h : d.Attracts (a.rational / b.rational)) : Holds (x / y) d := by
  apply ofModel_pack (q := UnpackedFloat.div Format.binary64 (Decimal.unpacked x)
    (Decimal.unpacked y)) hd
  rw [hx.unpacked, hy.unpacked]
  exact hx.held.div hy.held .positive .positive ha hb hmax hd h

end Holds

end HiddenEquation.Decimal
