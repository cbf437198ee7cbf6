import HiddenEquation.Proofs.Decimal.Rounding

/-!
# Whole numbers as doubles

A whole number becomes the double next to it, and is lost if it has more than 53 significant
bits.  `nearest` is the whole number that the double stands for.

* `standsFor_ofInt` : an integer becomes the double that stands for `nearestInt` of it.
* `nearestInt_eq_iff` : the integers that survive are those with `IsDouble`.
-/

namespace HiddenEquation.Decimal

open Float.Model

/-- The double `x` stands for the number `r`, and packing it loses nothing. -/
structure StandsFor (x : Float) (r : ℚ) : Prop where
  canonical : Canonical (unpacked x)
  rational : (Binary64.ofFloat x).rational? = some r

/-- A whole number rounded to 53 significant bits, a half to the even neighbour. -/
def nearest (n : Nat) : Nat := roundDiv n (2 ^ (n.log2 - 52)) * 2 ^ (n.log2 - 52)

/-- An integer rounded to 53 significant bits. -/
def nearestInt : Int → Int
  | .ofNat n => nearest n
  | .negSucc n => -nearest (n + 1)

/-- An integer with at most 53 significant bits. -/
def IsDouble (z : Int) : Prop := ∃ m k : Nat, m < 2 ^ 53 ∧ z.natAbs = m * 2 ^ k

/-- A whole number that is not rounded to anything too great for a double. -/
def InRange (n : Nat) : Prop :=
  n.log2 ≤ 1022 ∨ n.log2 = 1023 ∧ roundDiv n (2 ^ (n.log2 - 52)) < 2 ^ 53

theorem inRange_of_lt {n k : Nat} (hk : k ≤ 1023) (hn : n < 2 ^ k) : InRange n := by
  by_cases hzero : n = 0
  · subst hzero
    exact Or.inl (by decide)
  · have := (Nat.log2_lt hzero).2 hn
    exact Or.inl (by omega)

/-! ## Integers that survive rounding -/

theorem nearest_of_lt {n : Nat} (hn : n < 2 ^ 53) : nearest n = n := by
  have hlog : n.log2 - 52 = 0 := by
    by_cases hzero : n = 0
    · rw [hzero, Nat.log2_zero]
    · have := (Nat.log2_lt hzero).2 hn
      omega
  rw [nearest, hlog, Nat.pow_zero, roundDiv_mul_eq_iff Nat.one_pos]
  exact Nat.one_dvd n

/-- What is rounded off is what `2 ^ (log2 n - 52)` does not divide. -/
theorem nearest_eq_iff (n : Nat) : nearest n = n ↔ ∃ m k : Nat, m < 2 ^ 53 ∧ n = m * 2 ^ k := by
  rw [nearest, roundDiv_mul_eq_iff (Nat.two_pow_pos _)]
  by_cases hzero : n = 0
  · subst hzero
    exact iff_of_true (Nat.dvd_zero _) ⟨0, 0, by decide, rfl⟩
  · obtain ⟨hlo, hhi⟩ := (Nat.log2_eq_iff hzero).1 rfl
    constructor
    · rintro ⟨m, hm⟩
      refine ⟨m, n.log2 - 52, ?_, by rw [Nat.mul_comm, ← hm]⟩
      have hlt : 2 ^ (n.log2 - 52) * m < 2 ^ (n.log2 - 52) * 2 ^ 53 := by
        rw [← hm, ← Nat.pow_add]
        exact Nat.lt_of_lt_of_le hhi (Nat.pow_le_pow_right (by decide) (by omega))
      exact Nat.lt_of_mul_lt_mul_left hlt
    · rintro ⟨m, k, hm, hn⟩
      have hk : n.log2 < 53 + k := by
        rw [Nat.log2_lt hzero, Nat.pow_add]
        exact hn.trans_lt (Nat.mul_lt_mul_of_pos_right hm (Nat.two_pow_pos k))
      have hdvd : 2 ^ (n.log2 - 52) ∣ m * 2 ^ k :=
        Nat.dvd_mul_left_of_dvd (Nat.pow_dvd_pow 2 (by omega)) m
      rwa [← hn] at hdvd

/-- Rounding makes a whole number greater by at most one part in `2 ^ 53`. -/
theorem two_pow_mul_nearest_le (n : Nat) : 2 ^ 53 * nearest n ≤ (2 ^ 53 + 1) * n := by
  by_cases hlt : n < 2 ^ 53
  · rw [nearest_of_lt hlt]
    omega
  · have hround : 2 * nearest n ≤ 2 * n + 2 ^ (n.log2 - 52) :=
      (two_mul_roundDiv_mul_le (Nat.two_pow_pos _)).1
    have hlog : 2 ^ 52 * 2 ^ (n.log2 - 52) ≤ n := by
      have hlong : 52 ≤ n.log2 := (Nat.le_log2 (by omega)).2 (by omega)
      rw [← Nat.pow_add, Nat.add_sub_cancel' hlong]
      exact Nat.log2_self_le (by omega)
    omega

/-- A positive number stays positive. -/
theorem nearest_pos {n : Nat} (hn : 0 < n) : 0 < nearest n := by
  by_cases hlt : n < 2 ^ 53
  · rwa [nearest_of_lt hlt]
  · have hround : 2 * n ≤ 2 * nearest n + 2 ^ (n.log2 - 52) :=
      (two_mul_roundDiv_mul_le (Nat.two_pow_pos _)).2
    have hlog : 2 ^ (n.log2 - 52) ≤ n :=
      (Nat.pow_le_pow_right (by decide) (Nat.sub_le _ _)).trans (Nat.log2_self_le hn.ne')
    omega

/-- A number with more than 53 bits does not become one with fewer. -/
theorem two_pow_le_nearest {n : Nat} (hn : 2 ^ 53 ≤ n) : 2 ^ 53 ≤ nearest n := by
  obtain ⟨k, hk⟩ : ∃ k, n.log2 = 53 + k :=
    ⟨n.log2 - 53, by have := (Nat.le_log2 (by omega)).2 hn; omega⟩
  have hlo : 2 ^ 52 * 2 ^ (k + 1) ≤ n := by
    rw [← Nat.pow_add, show 52 + (k + 1) = n.log2 by omega]
    exact Nat.log2_self_le (by omega)
  have hround : 2 ^ 52 ≤ roundDiv n (2 ^ (k + 1)) :=
    ((Nat.le_div_iff_mul_le (Nat.two_pow_pos _)).2 hlo).trans (roundDiv_bounds _ _).1
  rw [nearest, show n.log2 - 52 = k + 1 by omega]
  calc 2 ^ 53 = 2 ^ 52 * 2 ^ 1 := rfl
    _ ≤ _ := Nat.mul_le_mul hround (Nat.pow_le_pow_right (by decide) (by omega))

theorem natAbs_nearestInt (z : Int) : (nearestInt z).natAbs = nearest z.natAbs := by
  cases z with
  | ofNat n => rfl
  | negSucc n => exact Int.natAbs_neg _

theorem nearestInt_eq_iff (z : Int) : nearestInt z = z ↔ IsDouble z := by
  cases z with
  | ofNat n =>
    rw [IsDouble, Int.natAbs_ofNat', ← nearest_eq_iff]
    exact Int.ofNat_inj
  | negSucc n =>
    rw [IsDouble, Int.natAbs_negSucc, Nat.succ_eq_add_one, ← nearest_eq_iff, nearestInt,
      Int.negSucc_eq, neg_inj]
    exact Int.ofNat_inj

/-- Nothing but itself is rounded to an integer below `2 ^ 53`. -/
theorem nearestInt_eq_safe_iff {t z : Int} (hz : z.natAbs < 2 ^ 53) :
    nearestInt t = z ↔ t = z := by
  have hself : ∀ i : Int, i.natAbs < 2 ^ 53 → nearestInt i = i := fun i hi =>
    (nearestInt_eq_iff i).2 ⟨i.natAbs, 0, hi, (Nat.mul_one _).symm⟩
  by_cases ht : t.natAbs < 2 ^ 53
  · rw [hself t ht]
  · have hlong := two_pow_le_nearest (Nat.le_of_not_lt ht)
    rw [← natAbs_nearestInt] at hlong
    refine iff_of_false (fun h => ?_) (fun h => ht (h ▸ hz))
    rw [h] at hlong
    omega

/-! ## Rounding a whole number -/

theorem log2_mul_two_pow {n : Nat} (hn : 0 < n) (j : Nat) : (n * 2 ^ j).log2 = n.log2 + j := by
  have hpos := Nat.two_pow_pos j
  obtain ⟨hlo, hhi⟩ := (Nat.log2_eq_iff (Nat.ne_of_gt hn)).1 rfl
  rw [Nat.log2_eq_iff (Nat.ne_of_gt (Nat.mul_pos hn hpos))]
  constructor
  · rw [Nat.pow_add]
    exact Nat.mul_le_mul_right _ hlo
  · rw [Nat.add_right_comm, Nat.pow_add]
    exact Nat.mul_lt_mul_of_pos_right hhi hpos

/-- A whole number may be scaled by a power of two before it is rounded. -/
theorem roundDiv_scaled {n j k : Nat} (h : n.log2 + j = 52 + k) :
    (roundDiv (n * 2 ^ j) (2 ^ k) : ℚ) * 2 ^ (-(j : Int) + k) = nearest n := by
  by_cases hlong : 52 ≤ n.log2
  · obtain rfl : k = n.log2 - 52 + j := by omega
    have hexp : -(j : Int) + (n.log2 - 52 + j : Nat) = (n.log2 - 52 : Nat) := by omega
    rw [hexp, Nat.pow_add, roundDiv_mul_right _ _ (Nat.two_pow_pos j), zpow_natCast, nearest]
    push_cast
    rfl
  · obtain rfl : j = 52 - n.log2 + k := by omega
    have hexp : -((52 - n.log2 + k : Nat) : Int) + k = -((52 - n.log2 : Nat) : Int) := by omega
    have hshort : n < 2 ^ 53 := by
      have := Nat.lt_log2_self (n := n)
      exact Nat.lt_of_lt_of_le this (Nat.pow_le_pow_right (by decide) (by omega))
    rw [hexp, Nat.pow_add, ← Nat.mul_assoc, roundDiv_mul_self _ (Nat.two_pow_pos k),
      nearest_of_lt hshort, zpow_neg, zpow_natCast]
    push_cast
    exact mul_inv_cancel_right₀ (pow_ne_zero _ two_ne_zero) _

theorem exists_roundWithAccuracy_scaled {n j : Nat} (hn : 0 < n) (hj : 52 ≤ n.log2 + j)
    (hmax : InRange n) :
    ∃ m e, ∃ hpos : 0 < m,
      UnpackedFloat.roundWithAccuracy Format.binary64 .positive (n * 2 ^ j) (-(j : Int)) .exact =
        .finite .positive m e hpos ∧
      Canonical (.finite .positive m e hpos) ∧ 2 ^ 52 ≤ m ∧ (m : ℚ) * 2 ^ e = nearest n := by
  obtain ⟨k, hk⟩ : ∃ k, n.log2 + j = 52 + k := ⟨n.log2 + j - 52, by omega⟩
  have hlog : (n * 2 ^ j).log2 = 52 + k := by rw [log2_mul_two_pow hn, hk]
  have hmax' : -(j : Int) + k ≤ 970 ∨
      -(j : Int) + k = 971 ∧ roundDiv (n * 2 ^ j) (2 ^ k) < 2 ^ 53 := by
    rcases hmax with hmax | ⟨hmax, hround⟩
    · exact Or.inl (by omega)
    · obtain rfl : k = n.log2 - 52 + j := by omega
      rw [Nat.pow_add, roundDiv_mul_right _ _ (Nat.two_pow_pos j)]
      exact Or.inr ⟨by omega, hround⟩
  obtain ⟨m, e, hpos, hround, hcanonical, hfull, hvalue⟩ :=
    exists_roundWithAccuracy .positive hlog (e := -(j : Int)) (by omega) hmax'
  exact ⟨m, e, hpos, hround, hcanonical, hfull, hvalue.trans (roundDiv_scaled hk)⟩

/-! ## Conversion -/

/-- What is packed stands for what it was before. -/
theorem StandsFor.pack {q : UnpackedFloat} {r : ℚ} (hq : Canonical q)
    (hr : (Binary64.ofUnpacked q).rational? = some r) : StandsFor (.ofModel (.pack q)) r := by
  have hunpacked := unpacked_ofModel_pack hq
  refine ⟨by rw [hunpacked]; exact hq, ?_⟩
  rw [Binary64.ofFloat_eq_ofUnpacked, hunpacked, hr]

theorem StandsFor.ofModel_pack {m : Nat} {e : Int} {r : ℚ} {hpos : 0 < m}
    (hcanonical : Canonical (.finite .positive m e hpos)) (hvalue : (m : ℚ) * 2 ^ e = r) :
    StandsFor (.ofModel (.pack (.finite .positive m e hpos))) r :=
  .pack hcanonical (by rw [Binary64.rational?_positive, hvalue])

/-- A number with more than 53 bits is rounded in one step. -/
theorem ofNat_of_le {n : Nat} (hn : 2 ^ 53 ≤ n) :
    Float.ofNat n = .ofModel (.pack (UnpackedFloat.roundWithAccuracy Format.binary64 .positive
      (n * 2 ^ 53) (-(53 : Nat)) .exact)) := by
  have hzero : n ≠ 0 := by omega
  rw [Float.ofNat]
  change Float.ofScientific n false 0 = _
  rw [Float.ofScientific, dif_neg (by omega)]
  dsimp only
  rw [if_neg Bool.false_ne_true, Float.Model.ofScientific, UnpackedFloat.ofScientific,
    dif_neg hzero, if_neg (by decide), if_neg, if_pos (by decide)]
  · have hshift : n <<< Format.binary64.mantissaBits * 10 ^ (Int.ofNat 0).toNat = n * 2 ^ 53 := by
      rw [Nat.shiftLeft_eq]
      exact Nat.mul_one _
    rw [mul_finite, hshift, add_zero]
    rfl
  · change ¬(0 : Int) < -(2048 + n.log2)
    omega

/-- A number with at most 53 bits is multiplied by one. -/
theorem ofNat_of_lt {n : Nat} (hn : n < 2 ^ 53) :
    Float.ofNat n = n.toUInt64.toFloat * Float.ofBits 0x3FF0000000000000 := by
  rw [Float.ofNat]
  change Float.ofScientific n false 0 = _
  rw [Float.ofScientific, dif_pos ⟨hn, by decide⟩]
  rfl

theorem toFloat_toUInt64 {n : Nat} (hpos : 0 < n) (hn : n < 2 ^ 53) :
    n.toUInt64.toFloat = .ofModel (.pack (UnpackedFloat.roundWithAccuracy Format.binary64
      .positive (n * 2 ^ (52 - n.log2)) (-((52 - n.log2 : Nat) : Int)) .exact)) := by
  have hcast : n.toUInt64.toNat = n := Nat.mod_eq_of_lt (by omega)
  have hlog : n.log2 < 53 := (Nat.log2_lt (Nat.ne_of_gt hpos)).2 hn
  have htarget : Format.binary64.targetExponent (totalExponent n 0) =
      -((52 - n.log2 : Nat) : Int) := by
    rw [targetExponent_totalExponent]
    omega
  change Float.ofModel (.pack (UnpackedFloat.ofNat Format.binary64 n.toUInt64.toNat)) = _
  rw [hcast, UnpackedFloat.ofNat, UnpackedFloat.ofInt, UnpackedFloat.normalize,
    compare_gt_iff_gt.2 (by omega : (n : Int) > 0)]
  dsimp only
  have hshift : (0 - -((52 - n.log2 : Nat) : Int)).toNat = 52 - n.log2 := by omega
  rw [Int.toNat_natCast, UnpackedFloat.round, htarget, UnpackedFloat.decreaseExponent, hshift,
    Nat.shiftLeft_eq, zero_sub]

/-- A product with one is not rounded. -/
theorem mul_one_unpacked {m : Nat} {e : Int} (hpos : 0 < m) (hfull : 2 ^ 52 ≤ m)
    (hm : m < 2 ^ 53) (he : -1074 ≤ e) :
    UnpackedFloat.mul Format.binary64 (.finite .positive m e hpos)
      (.finite .positive (2 ^ 52) (-52) (by decide)) = .finite .positive m e hpos := by
  have hdiv : roundDiv (m * 2 ^ 52) (2 ^ 52) = m := roundDiv_mul_self m (Nat.two_pow_pos 52)
  have hlog : m.log2 = 52 := (Nat.log2_eq_iff (Nat.ne_of_gt hpos)).2 ⟨hfull, hm⟩
  have hlog' : (m * 2 ^ 52).log2 = 52 + 52 := by rw [log2_mul_two_pow hpos, hlog]
  rw [mul_finite, show (.positive * .positive : UnpackedFloat.Sign) = .positive from rfl,
    roundWithAccuracy_eq .positive (j := 0) hlog' (by omega) (by rw [hdiv, hlog]) (by omega)]
  refine finite_congr _ ?_ ?_
  · rw [hdiv, Nat.pow_zero, Nat.div_one]
  · omega

theorem standsFor_ofNat_of_lt {n : Nat} (hpos : 0 < n) (hn : n < 2 ^ 53) :
    StandsFor (Float.ofNat n) n := by
  have hlog : n.log2 < 53 := (Nat.log2_lt (Nat.ne_of_gt hpos)).2 hn
  obtain ⟨m, e, hm, hround, hcanonical, hfull, hvalue⟩ :=
    exists_roundWithAccuracy_scaled hpos (j := 52 - n.log2) (by omega) (Or.inl (by omega))
  rw [nearest_of_lt hn] at hvalue
  have hone : unpacked (Float.ofBits 0x3FF0000000000000) =
      .finite .positive (2 ^ 52) (-52) (by decide) := rfl
  have hproduct (x y : Float) :
      x * y = .ofModel (.pack (UnpackedFloat.mul Format.binary64 (unpacked x) (unpacked y))) := rfl
  rw [ofNat_of_lt hn, toFloat_toUInt64 hpos hn, hround, hproduct, unpacked_ofModel_pack hcanonical,
    hone]
  have hbounds : m < 2 ^ 53 ∧ -1074 ≤ e := by
    cases hcanonical with
    | finite _ _ hlt hlo _ _ => exact ⟨hlt, hlo⟩
  rw [mul_one_unpacked hm hfull hbounds.1 hbounds.2]
  exact .ofModel_pack hcanonical hvalue

/-- **A whole number becomes the double next to it**, unless it is too great for one. -/
theorem standsFor_ofNat {n : Nat} (hn : InRange n) :
    StandsFor (Float.ofNat n) (nearest n) := by
  by_cases hlt : n < 2 ^ 53
  · rw [nearest_of_lt hlt]
    by_cases hzero : n = 0
    · subst hzero
      have hunpacked : unpacked (Float.ofNat 0) = .zero .positive := rfl
      refine ⟨by rw [hunpacked]; exact .zero _, ?_⟩
      rw [Binary64.ofFloat_eq_ofUnpacked, hunpacked, Binary64.rational?_zero, Nat.cast_zero]
    · exact standsFor_ofNat_of_lt (Nat.pos_of_ne_zero hzero) hlt
  · have hlong : 2 ^ 53 ≤ n := Nat.le_of_not_lt hlt
    obtain ⟨m, e, hpos, hround, hcanonical, -, hvalue⟩ :=
      exists_roundWithAccuracy_scaled (j := 53) (by omega : 0 < n) (by omega) hn
    rw [ofNat_of_le hlong, hround]
    exact .ofModel_pack hcanonical hvalue

theorem StandsFor.neg {x : Float} {r : ℚ} (h : StandsFor x r) : StandsFor x.neg (-r) := by
  refine ⟨?_, by rw [rational?_ofFloat_neg h.canonical, h.rational, Option.map_some]⟩
  rw [unpacked_neg h.canonical]
  exact h.canonical.neg

theorem standsFor_ofInt {z : Int} (hz : z.natAbs.log2 ≤ 1022) :
    StandsFor (Float.ofInt z) (nearestInt z) := by
  cases z with
  | ofNat n => exact standsFor_ofNat (Or.inl hz)
  | negSucc n =>
    rw [nearestInt, Int.cast_neg]
    exact (standsFor_ofNat (Or.inl hz)).neg

end HiddenEquation.Decimal
