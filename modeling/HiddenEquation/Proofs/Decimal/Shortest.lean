import HiddenEquation.Decimal.Shortest
import HiddenEquation.Proofs.Decimal.Rational
import Mathlib.Tactic.Linarith
import Mathlib.Tactic.Ring

/-!
# The shortest digits of a double

The search for the shortest digits ends on a grid that is fine enough, and what it finds lies among
the numbers that are nearest to the double, `Dyadic.Attracts`.  So the digits say which double they
were written for, and there are not many of them.

* `RoundingInterval.holds_inUnits_iff` : the interval of the search, as rational numbers.
* `isShort_shortest` : the shortest digits are nearest to their double, and make a number below
  `2 ^ 59`.
* `exponent_shortest_nonneg` : a whole number is written without a fraction.
* `shortest_whole` : a whole number below `2 ^ 53` is written with its own digits.
-/

namespace HiddenEquation.Decimal

/-! ## Powers of ten and of two -/

theorem zpow_eq_div {a : ℚ} (ha : a ≠ 0) (k : ℤ) : a ^ k = a ^ k.toNat / a ^ (-k).toNat := by
  rw [← zpow_natCast, ← zpow_natCast, ← zpow_sub₀ ha]
  congr 1
  omega

/-- Powers compare if two powers of their bases do. -/
theorem zpow_le_zpow_of_pow_le {x y : ℚ} (hx : 0 < x) (hy : 1 ≤ y) {i j : ℕ} (hi : i ≠ 0)
    (h : x ^ i ≤ y ^ j) {a b : ℤ} (ha : 0 ≤ a) (hab : j * a ≤ i * b) : x ^ a ≤ y ^ b := by
  have hy0 : 0 < y := lt_of_lt_of_le one_pos hy
  rw [← pow_le_pow_iff_left₀ (zpow_pos hx a).le (zpow_pos hy0 b).le hi]
  calc (x ^ a) ^ i = (x ^ i) ^ a := by rw [← zpow_natCast, ← zpow_natCast, zpow_comm]
    _ ≤ (y ^ j) ^ a := zpow_le_zpow_left₀ ha (pow_pos hx i).le h
    _ = y ^ (j * a) := by rw [zpow_mul, zpow_natCast]
    _ ≤ y ^ (i * b) := zpow_le_zpow_right₀ hy hab
    _ = (y ^ b) ^ i := by rw [mul_comm, zpow_mul, zpow_natCast]

theorem two_zpow_add_natCast (e : ℤ) (i : ℕ) : (2 : ℚ) ^ (e + i) = (2 ^ i : ℕ) * 2 ^ e := by
  rw [zpow_add₀ two_ne_zero, zpow_natCast, mul_comm]
  push_cast
  rfl

theorem zpow_le_one {x : ℚ} (hx : 1 ≤ x) {a : ℤ} (ha : a ≤ 0) : x ^ a ≤ 1 := by
  rw [← zpow_zero x]
  exact zpow_le_zpow_right₀ hx ha

theorem one_le_zpow {x : ℚ} (hx : 1 ≤ x) {a : ℤ} (ha : 0 ≤ a) : 1 ≤ x ^ a := by
  rw [← zpow_zero x]
  exact zpow_le_zpow_right₀ hx ha

/-- A power of ten is at most a power of two, since `10 ^ 3 ≤ 2 ^ 10` and `2 ^ 93 ≤ 10 ^ 28`. -/
theorem ten_zpow_le_two_zpow {a b : ℤ} (hup : 0 ≤ a → 10 * a ≤ 3 * b)
    (hdown : a ≤ 0 → 93 * a ≤ 28 * b) : (10 : ℚ) ^ a ≤ 2 ^ b := by
  rcases le_total 0 a with ha | ha
  · exact zpow_le_zpow_of_pow_le (by norm_num) (by norm_num) (i := 3) (j := 10) (by norm_num)
      (by norm_num) ha (hup ha)
  · rcases le_total 0 b with hb | hb
    · exact (zpow_le_one (by norm_num) ha).trans (one_le_zpow (by norm_num) hb)
    · have hinv : (2 : ℚ) ^ (-b) ≤ 10 ^ (-a) :=
        zpow_le_zpow_of_pow_le (by norm_num) (by norm_num) (i := 93) (j := 28) (by norm_num)
          (by norm_num) (by omega) (by have := hdown ha; push_cast; omega)
      rw [zpow_neg, zpow_neg] at hinv
      exact (inv_le_inv₀ (zpow_pos (by norm_num) b) (zpow_pos (by norm_num) a)).1 hinv

/-- A power of two is at most a power of ten, for the same reasons. -/
theorem two_zpow_le_ten_zpow {a b : ℤ} (hup : 0 ≤ a → 28 * b ≤ 93 * a)
    (hdown : a ≤ 0 → 3 * b ≤ 10 * a) : (2 : ℚ) ^ b ≤ 10 ^ a := by
  rcases le_total 0 b with hb | hb
  · rcases le_total 0 a with ha | ha
    · exact zpow_le_zpow_of_pow_le (by norm_num) (by norm_num) (i := 93) (j := 28) (by norm_num)
        (by norm_num) hb (hup ha)
    · obtain rfl : b = 0 := by have := hdown ha; omega
      obtain rfl : a = 0 := by have := hdown ha; omega
      norm_num
  · rcases le_total 0 a with ha | ha
    · exact (zpow_le_one (by norm_num) hb).trans (one_le_zpow (by norm_num) ha)
    · have hinv : (10 : ℚ) ^ (-a) ≤ 2 ^ (-b) :=
        zpow_le_zpow_of_pow_le (by norm_num) (by norm_num) (i := 3) (j := 10) (by norm_num)
          (by norm_num) (by omega) (by have := hdown ha; push_cast; omega)
      rw [zpow_neg, zpow_neg] at hinv
      exact (inv_le_inv₀ (zpow_pos (by norm_num) a) (zpow_pos (by norm_num) b)).1 hinv

/-! ## The numbers nearest to a double -/

namespace Dyadic

/-- A positive number that a double can be, in the one way in which it is. -/
structure Held (d : Dyadic) : Prop where
  pos : 0 < d.significand
  lt : d.significand < 2 ^ 53
  lo : -1074 ≤ d.exponent
  hi : d.exponent ≤ 971
  normal : 2 ^ 52 ≤ d.significand ∨ d.exponent = -1074

/-- How many quarters of the last place the nearest numbers reach down. -/
def reach (d : Dyadic) : ℕ :=
  if d.significand = Binary64.hiddenBit ∧ d.exponent ≠ Binary64.minExponent then 1 else 2

/-- The least of the nearest numbers, half-way to the double below. -/
def lowerEnd (d : Dyadic) : ℚ := (4 * d.significand - d.reach : ℕ) * 2 ^ (d.exponent - 2)

/-- The greatest of the nearest numbers, half-way to the double above. -/
def upperEnd (d : Dyadic) : ℚ := (4 * d.significand + 2 : ℕ) * 2 ^ (d.exponent - 2)

/-- The number is nearest to the double; half-way between two of them, to the even one. -/
def Attracts (d : Dyadic) (q : ℚ) : Prop :=
  if d.significand % 2 = 0 then d.lowerEnd ≤ q ∧ q ≤ d.upperEnd
  else d.lowerEnd < q ∧ q < d.upperEnd

variable {d : Dyadic} {q : ℚ}

theorem reach_pos (d : Dyadic) : 1 ≤ d.reach := by
  unfold reach
  split <;> decide

theorem reach_le (d : Dyadic) : d.reach ≤ 2 := by
  unfold reach
  split <;> decide

theorem rational_eq_quarters (d : Dyadic) :
    d.rational = (4 * d.significand : ℕ) * 2 ^ (d.exponent - 2) := by
  rw [rational, zpow_sub₀ two_ne_zero]
  push_cast
  ring

theorem Attracts.le_upperEnd (h : d.Attracts q) : q ≤ d.upperEnd := by
  unfold Attracts at h
  split at h
  · exact h.2
  · exact h.2.le

theorem Attracts.lowerEnd_le (h : d.Attracts q) : d.lowerEnd ≤ q := by
  unfold Attracts at h
  split at h
  · exact h.1
  · exact h.1.le

/-- What lies strictly between the ends is nearest to the double. -/
theorem attracts_of_lt (hlo : d.lowerEnd < q) (hhi : q < d.upperEnd) : d.Attracts q := by
  unfold Attracts
  split
  · exact ⟨hlo.le, hhi.le⟩
  · exact ⟨hlo, hhi⟩

/-- The ends are at least a quarter of the last place away. -/
theorem lowerEnd_add_le (h : 0 < d.significand) :
    d.lowerEnd + 2 ^ (d.exponent - 2) ≤ d.rational := by
  have hreach := d.reach_pos
  have hle : ((4 * d.significand - d.reach : ℕ) : ℚ) + 1 ≤ (4 * d.significand : ℕ) := by
    rw [← Nat.cast_succ, Nat.cast_le]
    omega
  rw [lowerEnd, rational_eq_quarters]
  nlinarith [zpow_pos (two_pos : (0 : ℚ) < 2) (d.exponent - 2)]

theorem rational_lt_upperEnd (d : Dyadic) : d.rational < d.upperEnd := by
  rw [upperEnd, rational_eq_quarters]
  apply mul_lt_mul_of_pos_right _ (zpow_pos two_pos _)
  rw [Nat.cast_lt]
  omega

theorem attracts_rational (h : 0 < d.significand) : d.Attracts d.rational := by
  have hunit := zpow_pos (two_pos : (0 : ℚ) < 2) (d.exponent - 2)
  have hend := lowerEnd_add_le h
  exact attracts_of_lt (by linarith) d.rational_lt_upperEnd

/-- The nearest numbers are at most half of the last place away. -/
theorem Attracts.near (h : d.Attracts q) :
    d.rational ≤ q + 2 ^ (d.exponent - 1) ∧ q ≤ d.rational + 2 ^ (d.exponent - 1) := by
  have hreach := d.reach_le
  have hlow : ((4 * d.significand : ℕ) : ℚ) ≤ (4 * d.significand - d.reach : ℕ) + 2 := by
    exact_mod_cast (by omega : 4 * d.significand ≤ 4 * d.significand - d.reach + 2)
  have hhalf : (2 : ℚ) ^ (d.exponent - 1) = 2 * 2 ^ (d.exponent - 2) := by
    rw [← zpow_one_add₀ two_ne_zero]
    congr 1
    ring
  have hunit := zpow_pos (two_pos : (0 : ℚ) < 2) (d.exponent - 2)
  have hlo := h.lowerEnd_le
  have hhi := h.le_upperEnd
  rw [lowerEnd] at hlo
  rw [upperEnd] at hhi
  rw [rational_eq_quarters, hhalf]
  constructor
  · nlinarith
  · push_cast at hhi ⊢
    linarith

theorem lowerEnd_pos (h : 0 < d.significand) : 0 < d.lowerEnd := by
  have hreach := d.reach_le
  exact mul_pos (Nat.cast_pos.2 (by omega)) (zpow_pos (by norm_num) _)

end Dyadic

/-! ## The interval of the search -/

namespace RoundingInterval

/-- Quarters of the last place and units of a power of ten compare as natural numbers. -/
theorem quarters_eq (a : ℕ) (e p : ℤ) : (a : ℚ) * 2 ^ (e - 2) =
    (a * 2 ^ (e - 2).toNat * 10 ^ (-p).toNat : ℕ) / (2 ^ (2 - e).toNat * 10 ^ (-p).toNat : ℕ) := by
  rw [zpow_eq_div two_ne_zero, neg_sub]
  push_cast
  rw [mul_div_mul_right _ _ (pow_ne_zero _ (by norm_num)), mul_div_assoc]

theorem units_eq (n : ℕ) (e p : ℤ) : (n : ℚ) * 10 ^ p =
    (n * (2 ^ (2 - e).toNat * 10 ^ p.toNat) : ℕ) / (2 ^ (2 - e).toNat * 10 ^ (-p).toNat : ℕ) := by
  rw [zpow_eq_div (by norm_num : (10 : ℚ) ≠ 0)]
  push_cast
  rw [mul_left_comm, mul_div_mul_left _ _ (pow_ne_zero _ two_ne_zero), mul_div_assoc]

theorem quarters_le_units_iff (a n : ℕ) (e p : ℤ) :
    a * 2 ^ (e - 2).toNat * 10 ^ (-p).toNat ≤ n * (2 ^ (2 - e).toNat * 10 ^ p.toNat) ↔
      (a : ℚ) * 2 ^ (e - 2) ≤ n * 10 ^ p := by
  rw [quarters_eq a e p, units_eq n e p, div_le_div_iff_of_pos_right (by positivity), Nat.cast_le]

theorem units_le_quarters_iff (a n : ℕ) (e p : ℤ) :
    n * (2 ^ (2 - e).toNat * 10 ^ p.toNat) ≤ a * 2 ^ (e - 2).toNat * 10 ^ (-p).toNat ↔
      (n : ℚ) * 10 ^ p ≤ a * 2 ^ (e - 2) := by
  rw [quarters_eq a e p, units_eq n e p, div_le_div_iff_of_pos_right (by positivity), Nat.cast_le]

variable {d : Dyadic}

/-- **The interval of the search**: a whole number of units lies in it if it is nearest to the
double. -/
theorem holds_inUnits_iff (d : Dyadic) (p : ℤ) (n : ℕ) :
    ((ofDyadic d).inUnits p).holds n = true ↔ d.Attracts (n * 10 ^ p) := by
  have hlo := quarters_le_units_iff (4 * d.significand - d.reach) n d.exponent p
  have hlo' := units_le_quarters_iff (4 * d.significand - d.reach) n d.exponent p
  have hhi := units_le_quarters_iff (4 * d.significand + 2) n d.exponent p
  have hhi' := quarters_le_units_iff (4 * d.significand + 2) n d.exponent p
  have hreach : (4 * d.significand - if decide (d.significand = Binary64.hiddenBit ∧
      d.exponent ≠ Binary64.minExponent) = true then 1 else 2) = 4 * d.significand - d.reach := by
    simp only [Dyadic.reach, decide_eq_true_eq]
  simp only [holds, inUnits, ofDyadic, hreach, Nat.pow_eq, beq_iff_eq, Dyadic.Attracts,
    Dyadic.lowerEnd, Dyadic.upperEnd]
  split
  · rw [Bool.and_eq_true, decide_eq_true_eq, decide_eq_true_eq, hlo, hhi]
  · rw [Bool.and_eq_true, decide_eq_true_eq, decide_eq_true_eq, ← not_le, ← not_le, hlo', hhi',
      not_le, not_le]

/-- A whole number of units is its own centre. -/
theorem centre_div_den_eq {p : ℤ} {n : ℕ} (h : d.rational = n * 10 ^ p) :
    ((ofDyadic d).inUnits p).centre / ((ofDyadic d).inUnits p).den = n := by
  have hden : 0 < ((ofDyadic d).inUnits p).den :=
    Nat.mul_pos (Nat.two_pow_pos _) (Nat.pow_pos (by decide))
  rw [d.rational_eq_quarters] at h
  have hle := (quarters_le_units_iff _ _ _ _).2 h.le
  have hge := (units_le_quarters_iff _ _ _ _).2 h.ge
  exact Nat.div_eq_of_eq_mul_left hden (hle.antisymm hge)

theorem nearest?_ne_none {i : RoundingInterval} (tie : Tie)
    (h : i.holds (i.centre / i.den) = true) : i.nearest? tie ≠ none := by
  unfold nearest?
  dsimp only
  rw [h]
  cases i.holds (i.centre / i.den + 1) with
  | false => simp
  | true =>
    dsimp only
    split
    · simp
    · split
      · simp
      · split <;> simp

/-- A grid no coarser than a quarter of the last place has a point in the interval. -/
theorem nearest?_inUnits_ne_none (tie : Tie) (hpos : 0 < d.significand) {p : ℤ}
    (hp : (10 : ℚ) ^ p ≤ 2 ^ (d.exponent - 2)) :
    ((ofDyadic d).inUnits p).nearest? tie ≠ none := by
  apply nearest?_ne_none
  let i := (ofDyadic d).inUnits p
  have hden : 0 < i.den := Nat.mul_pos (Nat.two_pow_pos _) (Nat.pow_pos (by decide))
  -- the point below the double is less than a unit away from it
  have hbelow : ((i.centre / i.den : ℕ) : ℚ) * 10 ^ p ≤ d.rational := by
    rw [d.rational_eq_quarters]
    exact (units_le_quarters_iff _ _ _ _).1 (Nat.div_mul_le_self i.centre i.den)
  have habove : d.rational < ((i.centre / i.den + 1 : ℕ) : ℚ) * 10 ^ p := by
    rw [d.rational_eq_quarters, ← not_le]
    intro hle
    have hlt : i.centre < (i.centre / i.den + 1) * i.den := by
      rw [Nat.mul_comm]
      exact Nat.lt_mul_div_succ i.centre hden
    exact absurd ((units_le_quarters_iff _ _ _ _).2 hle) (not_le.2 hlt)
  rw [Nat.cast_succ, add_mul, one_mul] at habove
  have hend := Dyadic.lowerEnd_add_le hpos
  rw [holds_inUnits_iff]
  apply Dyadic.attracts_of_lt
  · linarith
  · exact hbelow.trans_lt d.rational_lt_upperEnd

/-! ## The search -/

/-- The search finds the first grid that has a point in the interval. -/
theorem coarsest_spec (tie : Tie) (i : RoundingInterval) {grids k : ℕ} (hk : k < grids) (p : ℤ)
    (h : (i.inUnits (p - k)).nearest? tie ≠ none) :
    ∃ (j : ℕ) (n : ℕ), i.coarsest tie grids p = ⟨n, p - j⟩ ∧
      (i.inUnits (p - j)).nearest? tie = some n ∧
      ∀ m < j, (i.inUnits (p - m)).nearest? tie = none := by
  induction grids generalizing k p with
  | zero => omega
  | succ grids ih =>
    rw [coarsest]
    cases hp : (i.inUnits p).nearest? tie with
    | some n => exact ⟨0, n, by simp, by simpa using hp, by simp⟩
    | none =>
      cases k with
      | zero =>
        rw [Nat.cast_zero, sub_zero] at h
        exact absurd hp h
      | succ k =>
        have hshift (m : ℕ) : p - 1 - m = p - (m + 1 : ℕ) := by push_cast; ring
        obtain ⟨j, n, hj, hn, hnone⟩ := ih (by omega : k < grids) (p - 1) (by rwa [hshift])
        refine ⟨j + 1, n, by rw [hj, hshift], by rwa [← hshift], ?_⟩
        intro m hm
        cases m with
        | zero => simpa using hp
        | succ m =>
          rw [← hshift]
          exact hnone m (by omega)

end RoundingInterval

/-! ## The shortest digits -/

/-- The shortest digits are no zero, are nearest to their double, and are few. -/
structure Scaled.IsShort (s : Scaled) (d : Dyadic) : Prop where
  pos : 0 < s.coefficient
  attracts : d.Attracts (s.coefficient * 10 ^ s.exponent)
  lt : s.coefficient < 2 ^ 59

section

variable {d : Dyadic}

theorem decimalCeiling_eq (d : Dyadic) : d.decimalCeiling =
    (d.significand.log2 + d.exponent + 1) * 30103 / 100000 + 1 := rfl

theorem Dyadic.Held.log2_le (h : d.Held) : d.significand.log2 ≤ 52 := by
  have := (Nat.log2_lt h.pos.ne').2 h.lt
  omega

/-- The last grid is no coarser than a quarter of the last place. -/
theorem ten_zpow_floor_le (h : d.Held) :
    (10 : ℚ) ^ (d.decimalCeiling - 23) ≤ 2 ^ (d.exponent - 2) := by
  have hlog := h.log2_le
  have hlo := h.lo
  have hhi := h.hi
  rw [decimalCeiling_eq]
  apply ten_zpow_le_two_zpow
  · intro _
    omega
  · intro _
    omega

/-- The first grid is not much finer than the double itself. -/
theorem two_zpow_le_ceiling (h : d.Held) :
    (2 : ℚ) ^ (d.significand.log2 + d.exponent - 3) ≤ 10 ^ d.decimalCeiling := by
  have hlog := h.log2_le
  have hlo := h.lo
  have hhi := h.hi
  rw [decimalCeiling_eq]
  apply two_zpow_le_ten_zpow
  · intro _
    omega
  · intro _
    omega

theorem upperEnd_lt_two_zpow (h : d.Held) :
    d.upperEnd < 2 ^ (d.significand.log2 + d.exponent + 2) := by
  have hlt : d.significand < 2 ^ (d.significand.log2 + 1) := Nat.lt_log2_self
  have hnat : 4 * d.significand + 2 < 2 ^ (d.significand.log2 + 4) := by
    have hpos := h.pos
    rw [show d.significand.log2 + 4 = d.significand.log2 + 1 + 3 by omega, Nat.pow_add]
    omega
  calc d.upperEnd < ((2 ^ (d.significand.log2 + 4) : ℕ) : ℚ) * 2 ^ (d.exponent - 2) := by
        exact mul_lt_mul_of_pos_right (Nat.cast_lt.2 hnat) (zpow_pos two_pos _)
    _ = 2 ^ (d.significand.log2 + d.exponent + 2) := by
        push_cast
        rw [← zpow_natCast, ← zpow_add₀ two_ne_zero]
        congr 1
        push_cast
        ring

/-- **The shortest digits** of a double are nearest to it, and are few. -/
theorem isShort_shortest (tie : Tie) (h : d.Held) : (shortest tie d).IsShort d := by
  obtain ⟨j, n, hj, hn, hnone⟩ := RoundingInterval.coarsest_spec tie (.ofDyadic d)
    (by decide : 23 < 24) d.decimalCeiling
    (RoundingInterval.nearest?_inUnits_ne_none tie h.pos (ten_zpow_floor_le h))
  have hs : shortest tie d = ⟨n, d.decimalCeiling - j⟩ := by
    rw [shortest, if_neg h.pos.ne', hj]
  have hattracts : d.Attracts (n * 10 ^ (d.decimalCeiling - j)) :=
    (RoundingInterval.holds_inUnits_iff d _ n).1 (RoundingInterval.holds_of_nearest? hn)
  have hten : (0 : ℚ) < 10 ^ (d.decimalCeiling - j) := zpow_pos (by norm_num) _
  have hupper := hattracts.le_upperEnd
  rw [hs]
  refine ⟨?_, hattracts, ?_⟩
  · have hlower := (Dyadic.lowerEnd_pos h.pos).trans_le hattracts.lowerEnd_le
    exact Nat.cast_pos.1 ((mul_pos_iff_of_pos_right hten).1 hlower)
  · -- in both cases the end of the interval is less than `2 ^ 59` units up
    suffices hfew : d.upperEnd < (2 ^ 59 : ℕ) * 10 ^ (d.decimalCeiling - j) from
      Nat.cast_lt.1 (lt_of_mul_lt_mul_right (hupper.trans_lt hfew) hten.le)
    cases j with
    | zero =>
      have hfirst := two_zpow_le_ceiling h
      have hend := upperEnd_lt_two_zpow h
      have hsplit : (2 : ℚ) ^ (d.significand.log2 + d.exponent + 2) =
          2 ^ 5 * 2 ^ (d.significand.log2 + d.exponent - 3) := by
        rw [← zpow_natCast, ← zpow_add₀ two_ne_zero]
        congr 1
        push_cast
        ring
      rw [Nat.cast_zero, sub_zero] at hten ⊢
      push_cast
      linarith
    | succ j =>
      -- the grid before was too coarse for a point in the interval
      have hcoarse : ¬(10 : ℚ) ^ (d.decimalCeiling - j) ≤ 2 ^ (d.exponent - 2) :=
        fun hle => RoundingInterval.nearest?_inUnits_ne_none tie h.pos hle (hnone j (by omega))
      have hsplit : (10 : ℚ) ^ (d.decimalCeiling - j) =
          10 * 10 ^ (d.decimalCeiling - (j + 1 : ℕ)) := by
        rw [← zpow_one_add₀ (by norm_num)]
        congr 1
        push_cast
        ring
      rw [hsplit, not_le] at hcoarse
      have hquarters : ((4 * d.significand + 2 : ℕ) : ℚ) ≤ 2 ^ 55 := by
        have hlt := h.lt
        exact_mod_cast (by omega : 4 * d.significand + 2 ≤ 2 ^ 55)
      calc d.upperEnd ≤ 2 ^ 55 * 2 ^ (d.exponent - 2) :=
            mul_le_mul_of_nonneg_right hquarters (zpow_pos two_pos _).le
        _ < (2 ^ 59 : ℕ) * 10 ^ (d.decimalCeiling - (j + 1 : ℕ)) := by
            rw [show ((2 ^ 59 : ℕ) : ℚ) = 2 ^ 59 by norm_num]
            linarith

/-! ## Whole numbers -/

theorem Dyadic.log2_rational (h : 0 < d.significand) :
    (2 : ℚ) ^ (d.significand.log2 + d.exponent) ≤ d.rational ∧
      d.rational < 2 ^ (d.significand.log2 + d.exponent + 1) := by
  have hunit := zpow_pos (two_pos : (0 : ℚ) < 2) d.exponent
  rw [add_comm, add_assoc, ← Nat.cast_succ, two_zpow_add_natCast, two_zpow_add_natCast]
  constructor
  · exact mul_le_mul_of_nonneg_right (Nat.cast_le.2 (Nat.log2_self_le h.ne')) hunit.le
  · exact mul_lt_mul_of_pos_right (Nat.cast_lt.2 Nat.lt_log2_self) hunit

/-- The digits of a whole number make a whole number: the grid of the units has the number itself
for a point, so the search ends there at the latest. -/
theorem exponent_shortest_nonneg (tie : Tie) (h : d.Held) {n : ℕ} (hn : d.rational = n) :
    0 ≤ (shortest tie d).exponent := by
  have hpos : 0 < n := by
    rw [← Nat.cast_pos (α := ℚ), ← hn]
    exact Dyadic.rational_pos h.pos
  have hleast : 0 < d.significand.log2 + d.exponent + 1 := by
    rw [← zpow_lt_zpow_iff_right₀ (one_lt_two : (1 : ℚ) < 2), zpow_zero]
    refine lt_of_le_of_lt ?_ (Dyadic.log2_rational h.pos).2
    rw [hn]
    exact_mod_cast hpos
  have hceiling := decimalCeiling_eq d
  obtain ⟨k, hk, hcoarse, hpoint⟩ : ∃ k : ℕ, k < 24 ∧ 0 ≤ d.decimalCeiling - k ∧
      ((RoundingInterval.ofDyadic d).inUnits (d.decimalCeiling - k)).nearest? tie ≠ none := by
    by_cases hfew : d.decimalCeiling < 24
    · have hunits : d.decimalCeiling - (d.decimalCeiling.toNat : ℕ) = 0 := by omega
      refine ⟨d.decimalCeiling.toNat, by omega, hunits.ge, ?_⟩
      have hcentre := RoundingInterval.centre_div_den_eq (d := d) (p := 0) (n := n)
        (by rw [zpow_zero, mul_one, hn])
      apply RoundingInterval.nearest?_ne_none
      rw [hunits, hcentre, RoundingInterval.holds_inUnits_iff, zpow_zero, mul_one, ← hn]
      exact Dyadic.attracts_rational h.pos
    · exact ⟨23, by decide, by omega,
        RoundingInterval.nearest?_inUnits_ne_none tie h.pos (ten_zpow_floor_le h)⟩
  obtain ⟨j, c, hj, -, hnone⟩ :=
    RoundingInterval.coarsest_spec tie (.ofDyadic d) hk d.decimalCeiling hpoint
  rw [shortest, if_neg h.pos.ne', hj]
  by_contra hneg
  exact hpoint (hnone k (by dsimp only at hneg; omega))

/-- A whole number below `2 ^ 53` is written with its own digits. -/
theorem shortest_whole (tie : Tie) (h : d.Held) {n : ℕ} (hn : d.rational = n) (hlt : n < 2 ^ 53) :
    0 ≤ (shortest tie d).exponent ∧
      (shortest tie d).coefficient * 10 ^ (shortest tie d).exponent.toNat = n := by
  have hexp := exponent_shortest_nonneg tie h hn
  refine ⟨hexp, ?_⟩
  -- the digits make a whole number, less than one away
  have hmost : d.significand.log2 + d.exponent < 53 := by
    rw [← zpow_lt_zpow_iff_right₀ (one_lt_two : (1 : ℚ) < 2)]
    exact (Dyadic.log2_rational h.pos).1.trans_lt (hn.trans_lt (by exact_mod_cast hlt))
  have hexp' : d.exponent ≤ 0 := by
    rcases h.normal with hfull | hmin
    · have := (Nat.le_log2 h.pos.ne').2 hfull
      omega
    · omega
  have hhalf : (2 : ℚ) ^ (d.exponent - 1) ≤ 1 / 2 := by
    calc (2 : ℚ) ^ (d.exponent - 1) ≤ 2 ^ (-1 : ℤ) := zpow_le_zpow_right₀ one_le_two (by omega)
      _ = 1 / 2 := by norm_num
  have hnear := (isShort_shortest tie h).attracts.near
  generalize shortest tie d = s at hexp hnear ⊢
  rw [hn, ← Int.toNat_of_nonneg hexp, zpow_natCast] at hnear
  have hle : 2 * n ≤ 2 * (s.coefficient * 10 ^ s.exponent.toNat) + 1 := by
    have : (2 * n : ℚ) ≤ 2 * (s.coefficient * 10 ^ s.exponent.toNat) + 1 := by linarith
    exact_mod_cast this
  have hge : 2 * (s.coefficient * 10 ^ s.exponent.toNat) ≤ 2 * n + 1 := by
    have : (2 * (s.coefficient * 10 ^ s.exponent.toNat) : ℚ) ≤ 2 * n + 1 := by linarith
    exact_mod_cast this
  omega

end

end HiddenEquation.Decimal
