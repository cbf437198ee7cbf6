import HiddenEquation.Json.Number
import HiddenEquation.Proofs.Decimal.Plain

/-!
# A double that is read back

A double is written with its shortest digits.  They are read as a whole number, which becomes the
double next to it and is then multiplied with a power of ten or divided by one, in two steps if
there is no double for the power, so that what is read back need not be the double that was written.

* `scaled_asRead` : no double is written so that it is too great to be read.
* `rescales_asRead` : the steps in which the power of ten is brought in.
* `ReadExactly.reread_eq` : a double comes back if the whole number and the power of ten are doubles
  themselves.
* `readExactly_ofInt` : the whole numbers of which that is true.
-/

namespace HiddenEquation.Json

open Decimal Float.Model

/-- The whole number and the power of ten as which the digits of a positive double or zero are read.
Without an exponent the digits of a whole number go on to one zero after the point. -/
def asRead (d : Decimal.Dyadic) : Scaled :=
  let s := shortest Style.json.tie d
  let e := s.exponent + ((toString s.coefficient).length - 1 : Nat)
  if Style.json.positional e = true ∧ 0 ≤ s.exponent then
    ⟨s.coefficient * 10 ^ (s.exponent.toNat + 1), -1⟩
  else s

/-- The whole number as a double, multiplied with the power of ten or divided by it. -/
def rescaled (s : Scaled) : Float :=
  if 0 ≤ s.exponent then Float.ofNat s.coefficient * powerOfTen s.exponent.toNat
  else divideByPower (Float.ofNat s.coefficient) (-s.exponent).toNat

/-- The double that is read back for a finite one. -/
def reread (x : Float) : Float :=
  match Binary64.ofFloat x with
  | .finite negative d => if negative then -rescaled (asRead d) else rescaled (asRead d)
  | _ => x

/-- The whole number that the digits of a double make and the power of ten are doubles
themselves. -/
def ReadExactly (x : Float) : Prop :=
  ∃ negative d, Binary64.ofFloat x = .finite negative d ∧
    nearest (asRead d).coefficient = (asRead d).coefficient ∧ (asRead d).exponent.natAbs ≤ 22

theorem reread_of_ofFloat {x : Float} {negative : Bool} {d : Decimal.Dyadic}
    (h : Binary64.ofFloat x = .finite negative d) :
    reread x = if negative then -rescaled (asRead d) else rescaled (asRead d) := by
  rw [reread, h]

/-! ## The number that is read -/

theorem length_toString (n : ℕ) : (toString n).length = (Nat.toDigits 10 n).length :=
  String.length_ofList

theorem lt_pow_length_toString (n : ℕ) : n < 10 ^ (toString n).length := by
  rw [length_toString]
  exact (Nat.length_toDigits_le_iff (by decide)
    (List.length_pos_iff.2 Nat.toDigits_ne_nil)).1 le_rfl

theorem pow_length_toString_sub_one_le {n : ℕ} (hn : 0 < n) :
    10 ^ ((toString n).length - 1) ≤ n := by
  by_contra hlt
  have hone : 0 < (toString n).length - 1 := by
    by_contra hzero
    rw [Nat.eq_zero_of_not_pos hzero] at hlt
    omega
  have hle := (Nat.length_toDigits_le_iff (by decide) hone).2 (not_le.1 hlt)
  rw [← length_toString] at hle
  omega

/-- A whole number with zeros and one zero more after the point has at most 17 digits. -/
theorem coefficient_lt_of_positional {s : Scaled}
    (h : Style.json.positional (s.exponent + ((toString s.coefficient).length - 1 : Nat)) = true)
    (hexp : 0 ≤ s.exponent) : s.coefficient * 10 ^ (s.exponent.toNat + 1) < 10 ^ 17 := by
  rw [Style.json, Bool.and_eq_true, decide_eq_true_eq, decide_eq_true_eq] at h
  calc s.coefficient * 10 ^ (s.exponent.toNat + 1)
      < 10 ^ (toString s.coefficient).length * 10 ^ (s.exponent.toNat + 1) :=
        Nat.mul_lt_mul_of_pos_right (lt_pow_length_toString _) (Nat.pow_pos (by decide))
    _ = 10 ^ ((toString s.coefficient).length + (s.exponent.toNat + 1)) := (Nat.pow_add ..).symm
    _ ≤ 10 ^ 17 := Nat.pow_le_pow_right (by decide) (by omega)

section

variable {d : Decimal.Dyadic}

/-- What is read is the same number as what was written. -/
theorem isShort_asRead (h : d.Held) : (asRead d).IsShort d := by
  have hs := isShort_shortest Style.json.tie h
  unfold asRead
  dsimp only
  generalize shortest Style.json.tie d = s at hs
  split
  · rename_i hwhole
    obtain ⟨hpositional, hexp⟩ := hwhole
    have hlt := coefficient_lt_of_positional hpositional hexp
    have hnumber : ((s.coefficient * 10 ^ (s.exponent.toNat + 1) : ℕ) : ℚ) * 10 ^ (-1 : ℤ) =
        s.coefficient * 10 ^ s.exponent := by
      obtain ⟨p, hp⟩ := Int.eq_ofNat_of_zero_le hexp
      rw [hp, Int.toNat_natCast, zpow_natCast, zpow_neg_one]
      push_cast
      ring
    refine ⟨Nat.mul_pos hs.pos (Nat.pow_pos (by decide)), ?_, hlt.trans (by decide)⟩
    dsimp only
    rw [hnumber]
    exact hs.attracts
  · exact hs

/-! ## The doubles of the two factors -/

theorem inRange_ten_pow {p : ℕ} (hp : p ≤ maxPower) : InRange (10 ^ p) := by
  rcases Nat.lt_or_eq_of_le hp with hlt | rfl
  · apply inRange_of_lt le_rfl
    calc 10 ^ p ≤ 10 ^ 307 := Nat.pow_le_pow_right (by decide) (Nat.le_of_lt_succ hlt)
      _ < 2 ^ 1023 := by decide +kernel
  · exact Or.inr (by decide +kernel)

theorem exists_holds_coefficient {c : ℕ} (hpos : 0 < c) (hc : c < 2 ^ 59) :
    ∃ a, Holds (Float.ofNat c) a ∧ a.rational = nearest c :=
  (standsFor_ofNat (inRange_of_lt (by decide) hc)).exists_holds (Nat.cast_pos.2 (nearest_pos hpos))

theorem exists_holds_powerOfTen {p : ℕ} (hp : p ≤ maxPower) :
    ∃ b, Holds (powerOfTen p) b ∧ b.rational = nearest (10 ^ p) :=
  (standsFor_ofNat (inRange_ten_pow hp)).exists_holds
    (Nat.cast_pos.2 (nearest_pos (Nat.pow_pos (by decide))))

/-- The power of ten is one that scales in one step. -/
theorem exponent_le_maxPower {s : Scaled} (h : d.Held) (hs : s.IsShort d) :
    s.exponent ≤ (maxPower : ℕ) := by
  have hlog := h.log2_le
  have hhi := h.hi
  have hlt : (10 : ℚ) ^ s.exponent < 10 ^ (309 : ℤ) := by
    calc (10 : ℚ) ^ s.exponent ≤ s.coefficient * 10 ^ s.exponent :=
          le_mul_of_one_le_left (zpow_pos (by norm_num) _).le (Nat.one_le_cast.2 hs.pos)
      _ < 2 ^ (d.significand.log2 + d.exponent + 2) :=
          hs.attracts.le_upperEnd.trans_lt (upperEnd_lt_two_zpow h)
      _ ≤ 2 ^ (1025 : ℤ) := zpow_le_zpow_right₀ one_le_two (by omega)
      _ ≤ 10 ^ (309 : ℤ) := two_zpow_le_ten_zpow (by omega) (by omega)
  have := (zpow_lt_zpow_iff_right₀ (by norm_num)).1 hlt
  rw [maxPower]
  omega

/-! ## No double is too great to be read -/

/-- Two factors that are rounded up make a product that is not so much greater. -/
theorem mul_lt_of_two_roundings {x y c t u : ℚ} (hx : 2 ^ 53 * x ≤ (2 ^ 53 + 1) * c)
    (hy : 2 ^ 53 * y ≤ (2 ^ 53 + 1) * t) (hy0 : 0 ≤ y) (hc0 : 0 ≤ c) (hu : 0 < u)
    (h : c * t ≤ (2 ^ 55 - 10) * u) : x * y < (2 ^ 54 - 1) * (u * 2) := by
  have hproduct : 2 ^ 106 * (x * y) ≤ (2 ^ 53 + 1) ^ 2 * (c * t) := by
    calc 2 ^ 106 * (x * y) = 2 ^ 53 * x * (2 ^ 53 * y) := by ring
      _ ≤ (2 ^ 53 + 1) * c * ((2 ^ 53 + 1) * t) := mul_le_mul hx hy (by positivity) (by positivity)
      _ = (2 ^ 53 + 1) ^ 2 * (c * t) := by ring
  linarith

/-- Rounding twice does not make the product so much greater, unless the double is one of the two
greatest. -/
theorem isInf_mul_powerOfTen {s : Scaled} (h : d.Held) (hs : s.IsShort d) (hexp : 0 ≤ s.exponent)
    (hmax : d.exponent = 971 → d.significand ≤ 2 ^ 53 - 3) :
    (Float.ofNat s.coefficient * powerOfTen s.exponent.toNat).isInf = false := by
  have hp := exponent_le_maxPower h hs
  obtain ⟨a, hx, ha⟩ := exists_holds_coefficient hs.pos hs.lt
  obtain ⟨b, hy, hb⟩ := exists_holds_powerOfTen (p := s.exponent.toNat) (by omega)
  have hnumber : (s.coefficient : ℚ) * 10 ^ s.exponent.toNat ≤ d.upperEnd := by
    have hle := hs.attracts.le_upperEnd
    rwa [← Int.toNat_of_nonneg hexp, zpow_natCast] at hle
  have hend : d.upperEnd ≤ (2 ^ 55 - 10) * 2 ^ (969 : ℤ) := by
    by_cases hexp' : d.exponent = 971
    · have hsig : ((4 * d.significand + 2 : ℕ) : ℚ) ≤ (2 ^ 55 - 10 : ℕ) :=
        Nat.cast_le.2 (by have := hmax hexp'; omega)
      rw [Dyadic.upperEnd, hexp']
      exact mul_le_mul_of_nonneg_right (hsig.trans (by norm_num)) (zpow_pos two_pos _).le
    · have hsig : ((4 * d.significand + 2 : ℕ) : ℚ) ≤ (2 ^ 55 - 2 : ℕ) :=
        Nat.cast_le.2 (by have := h.lt; omega)
      have hunit : (2 : ℚ) ^ (d.exponent - 2) ≤ 2 ^ (968 : ℤ) :=
        zpow_le_zpow_right₀ one_le_two (by have := h.hi; omega)
      have hdouble : (2 : ℚ) ^ (969 : ℤ) = 2 ^ (968 : ℤ) * 2 := zpow_add_one₀ two_ne_zero 968
      calc d.upperEnd ≤ (2 ^ 55 - 2 : ℕ) * 2 ^ (968 : ℤ) :=
            mul_le_mul hsig hunit (zpow_pos two_pos _).le (Nat.cast_nonneg _)
        _ ≤ (2 ^ 55 - 10) * 2 ^ (969 : ℤ) := by
            rw [hdouble, mul_comm (2 ^ (968 : ℤ) : ℚ), ← mul_assoc]
            exact mul_le_mul_of_nonneg_right (by norm_num) (zpow_pos two_pos _).le
  apply hx.isInf_mul hy
  · rw [ha]
    exact Nat.one_le_cast.2 (nearest_pos hs.pos)
  · rw [hb]
    exact Nat.one_le_cast.2 (nearest_pos (Nat.pow_pos (by decide)))
  · have hdouble : (2 : ℚ) ^ (970 : ℤ) = 2 ^ (969 : ℤ) * 2 := zpow_add_one₀ two_ne_zero 969
    rw [ha, hb, hdouble]
    refine mul_lt_of_two_roundings ?_ ?_ (Nat.cast_nonneg _) (Nat.cast_nonneg _)
      (zpow_pos two_pos _) (hnumber.trans hend)
    · exact_mod_cast two_pow_mul_nearest_le s.coefficient
    · exact_mod_cast two_pow_mul_nearest_le (10 ^ s.exponent.toNat)

theorem isInf_rescaled (h : d.Held) (hexp : 0 ≤ (asRead d).exponent) :
    (Float.ofNat (asRead d).coefficient * powerOfTen (asRead d).exponent.toNat).isInf = false := by
  by_cases hmax : d.exponent = 971 → d.significand ≤ 2 ^ 53 - 3
  · exact isInf_mul_powerOfTen h (isShort_asRead h) hexp hmax
  · -- the two greatest doubles
    obtain ⟨m, e⟩ := d
    have hlt := h.lt
    rw [Classical.not_imp] at hmax
    obtain ⟨rfl, hgreat⟩ := hmax
    obtain rfl | rfl : m = 2 ^ 53 - 2 ∨ m = 2 ^ 53 - 1 := by
      dsimp only at hlt hgreat
      omega
    · decide +kernel
    · decide +kernel

/-- **No double is too great to be read.** -/
theorem scaled_asRead (h : d = ⟨0, -1074⟩ ∨ d.Held) :
    scaled (asRead d).coefficient (asRead d).exponent = .ok (rescaled (asRead d)) := by
  by_cases hexp : 0 ≤ (asRead d).exponent
  · rcases h with rfl | h
    · exact absurd hexp (by decide)
    · have hp := exponent_le_maxPower h (isShort_asRead h)
      have hfinite := isInf_rescaled h hexp
      rw [scaled, if_pos hexp, scaleUp, if_pos (by omega), rescaled, if_pos hexp]
      dsimp only
      rw [if_neg (by rw [hfinite]; exact Bool.false_ne_true)]
  · rw [scaled, if_neg hexp, rescaled, if_neg hexp]

/-! ## The steps of the reading -/

/-- What becomes of a whole number and a power of ten, each the nearest double: their product, their
quotient, or the quotient in two steps where the power is greater than `10 ^ 308`. -/
inductive Rescales (s : Scaled) : Float → Prop where
  | multiplied (h : 0 ≤ s.exponent) (hpower : s.exponent ≤ 308) :
      Rescales s (Float.ofNat s.coefficient * powerOfTen s.exponent.toNat)
  | divided (h : s.exponent < 0) (hpower : -308 ≤ s.exponent) :
      Rescales s (Float.ofNat s.coefficient / powerOfTen (-s.exponent).toNat)
  | dividedTwice (h : s.exponent < -308) (hpower : -616 ≤ s.exponent) :
      Rescales s
        (Float.ofNat s.coefficient / powerOfTen 308 / powerOfTen (-s.exponent - 308).toNat)

/-- The power of ten is one that divides in two steps. -/
theorem neg_two_maxPower_le_exponent {s : Scaled} (h : d.Held) (hs : s.IsShort d) :
    -(2 * maxPower : ℕ) ≤ s.exponent := by
  have hpos := h.pos
  have hlo := h.lo
  have hquarters : (1 : ℚ) ≤ (4 * d.significand - d.reach : ℕ) :=
    Nat.one_le_cast.2 (by have := d.reach_le; omega)
  have hcoefficient : (s.coefficient : ℚ) < 2 ^ (59 : ℤ) := by exact_mod_cast hs.lt
  have hunit : (2 : ℚ) ^ (-1076 : ℤ) < 2 ^ (59 : ℤ) * 10 ^ s.exponent := by
    calc (2 : ℚ) ^ (-1076 : ℤ) ≤ 2 ^ (d.exponent - 2) := zpow_le_zpow_right₀ one_le_two (by omega)
      _ ≤ d.lowerEnd := le_mul_of_one_le_left (zpow_pos two_pos _).le hquarters
      _ ≤ s.coefficient * 10 ^ s.exponent := hs.attracts.lowerEnd_le
      _ < 2 ^ (59 : ℤ) * 10 ^ s.exponent :=
          mul_lt_mul_of_pos_right hcoefficient (zpow_pos (by norm_num) _)
  have hlt : (10 : ℚ) ^ (-617 : ℤ) < 10 ^ s.exponent := by
    calc (10 : ℚ) ^ (-617 : ℤ) ≤ 2 ^ (-1135 : ℤ) := ten_zpow_le_two_zpow (by omega) (by omega)
      _ = 2 ^ (-1076 : ℤ) / 2 ^ (59 : ℤ) := by rw [← zpow_sub₀ two_ne_zero]; rfl
      _ < 10 ^ s.exponent := (div_lt_iff₀' (zpow_pos two_pos _)).2 hunit
  have := (zpow_lt_zpow_iff_right₀ (by norm_num)).1 hlt
  rw [maxPower]
  omega

theorem rescales_rescaled {s : Scaled} (hlo : -616 ≤ s.exponent) (hhi : s.exponent ≤ 308)
    (hpos : s.exponent < -308 → 0 < s.coefficient) : Rescales s (rescaled s) := by
  unfold rescaled
  split
  · rename_i hexp
    exact .multiplied hexp hhi
  · rename_i hexp
    by_cases hone : -308 ≤ s.exponent
    · rw [divideByPower, if_pos (by rw [maxPower]; omega)]
      exact .divided (by omega) hone
    · have hnonzero : ¬(Float.ofNat s.coefficient == 0) = true :=
        mt ofNat_beq_zero_iff.1 (Nat.ne_of_gt (hpos (not_le.1 hone)))
      have hrest : (-s.exponent).toNat - maxPower = (-s.exponent - 308).toNat := by
        rw [maxPower]
        omega
      rw [divideByPower, if_neg (by rw [maxPower]; omega), if_neg hnonzero, hrest, divideByPower,
        if_pos (by rw [maxPower]; omega)]
      exact .dividedTwice (not_le.1 hone) hlo

/-- **The steps in which a double is read back.** -/
theorem rescales_asRead (h : d = ⟨0, -1074⟩ ∨ d.Held) :
    Rescales (asRead d) (rescaled (asRead d)) := by
  rcases h with rfl | h
  · -- zero is read as nothing over ten
    apply rescales_rescaled <;> decide
  · have hs := isShort_asRead h
    exact rescales_rescaled (neg_two_maxPower_le_exponent h hs) (exponent_le_maxPower h hs)
      fun _ => hs.pos

theorem exists_rescales_of_isFinite {x : Float} (hx : x.isFinite = true) :
    ∃ negative d y, Binary64.ofFloat x = .finite negative d ∧ Rescales (asRead d) y ∧
      reread x = if negative then -y else y := by
  obtain ⟨negative, d, hd⟩ := exists_ofFloat_of_isFinite hx
  exact ⟨negative, d, _, hd, rescales_asRead (eq_zero_or_held_of_ofFloat hd), reread_of_ofFloat hd⟩

/-- The least double is written as five times `10 ^ -324`, and comes back in two steps. -/
example : (reread 5e-324).toBits = 1 := by decide +kernel

/-! ## Doubles that come back -/

/-- The powers of ten up to this one are doubles. -/
theorem nearest_ten_pow {p : ℕ} (hp : p ≤ 22) : nearest (10 ^ p) = 10 ^ p := by
  rw [nearest_eq_iff]
  refine ⟨5 ^ p, p, (Nat.pow_le_pow_right (by decide) hp).trans_lt (by decide), ?_⟩
  rw [← Nat.mul_pow]

theorem holds_rescaled (h : d.Held) (hc : nearest (asRead d).coefficient = (asRead d).coefficient)
    (hp : (asRead d).exponent.natAbs ≤ 22) : Holds (rescaled (asRead d)) d := by
  have hs := isShort_asRead h
  generalize asRead d = s at hs hc hp
  have hattracts := hs.attracts
  obtain ⟨a, hx, ha⟩ := exists_holds_coefficient hs.pos hs.lt
  rw [hc] at ha
  have haone : 1 ≤ a.rational := by
    rw [ha]
    exact Nat.one_le_cast.2 hs.pos
  have hpower {p : ℕ} (hp : p ≤ 22) : ∃ b, Holds (powerOfTen p) b ∧ b.rational = 10 ^ p ∧
      1 ≤ b.rational := by
    obtain ⟨b, hy, hb⟩ := exists_holds_powerOfTen (p := p) (by rw [maxPower]; omega)
    rw [nearest_ten_pow hp] at hb
    push_cast at hb
    exact ⟨b, hy, hb, by rw [hb]; exact one_le_pow₀ (by norm_num)⟩
  unfold rescaled
  split
  · rename_i hexp
    obtain ⟨b, hy, hb, hbone⟩ := hpower (p := s.exponent.toNat) (by omega)
    apply hx.mul hy haone hbone h
    rwa [ha, hb, ← zpow_natCast, Int.toNat_of_nonneg hexp]
  · rename_i hexp
    obtain ⟨b, hy, hb, hbone⟩ := hpower (p := (-s.exponent).toNat) (by omega)
    rw [divideByPower, if_pos (by rw [maxPower]; omega)]
    rw [← zpow_natCast, Int.toNat_of_nonneg (by omega)] at hb
    apply hx.div hy haone hbone ?_ h
    · rwa [ha, hb, zpow_neg, div_inv_eq_mul]
    · rw [hb]
      exact ten_zpow_le_two_zpow (by omega) (by omega)

/-- **A double comes back** if its digits are read exactly. -/
theorem ReadExactly.reread_eq {x : Float} (h : ReadExactly x) : reread x = x := by
  obtain ⟨negative, d, hx, hc, hp⟩ := h
  rw [reread_of_ofFloat hx]
  rcases eq_zero_or_held_of_ofFloat hx with rfl | h
  · -- zero is read as nothing over ten
    apply eq_of_ofFloat _ hx
    cases negative <;> decide +kernel
  · exact eq_of_ofFloat ((holds_rescaled h hc hp).ofFloat_signed negative) hx

/-! ## Whole numbers -/

/-- A whole number below `2 ^ 53` is written without an exponent, and read with one zero more. -/
theorem asRead_whole (h : d.Held) {n : ℕ} (hn : d.rational = n) (hlt : n < 2 ^ 53) :
    asRead d = ⟨n * 10, -1⟩ := by
  obtain ⟨hexp, hdigits⟩ := shortest_whole Style.json.tie h hn hlt
  have hpos := (isShort_shortest Style.json.tie h).pos
  unfold asRead
  dsimp only
  generalize shortest Style.json.tie d = s at hexp hdigits hpos
  have hlen : (toString s.coefficient).length - 1 + s.exponent.toNat < 16 := by
    rw [← Nat.pow_lt_pow_iff_right (by decide : 1 < 10), Nat.pow_add]
    refine lt_of_le_of_lt ?_ (hlt.trans (by decide : 2 ^ 53 < 10 ^ 16))
    rw [← hdigits]
    exact Nat.mul_le_mul_right _ (pow_length_toString_sub_one_le hpos)
  have hpositional : Style.json.positional
      (s.exponent + ((toString s.coefficient).length - 1 : ℕ)) = true := by
    rw [Style.json, Bool.and_eq_true, decide_eq_true_eq, decide_eq_true_eq]
    omega
  rw [if_pos ⟨hpositional, hexp⟩, Nat.pow_succ, ← Nat.mul_assoc, hdigits]

theorem readExactly_of_whole {x : Float} {negative : Bool}
    (hx : Binary64.ofFloat x = .finite negative d) (h : d.Held) {n : ℕ} (hn : d.rational = n)
    (hlt : 10 * n < 2 ^ 53) : ReadExactly x := by
  have hread := asRead_whole h hn (by omega)
  have hten : nearest (n * 10) = n * 10 := nearest_of_lt (by omega)
  refine ⟨negative, d, hx, ?_, ?_⟩ <;> rw [hread]
  · exact hten
  · exact (by decide : (-1 : ℤ).natAbs ≤ 22)

/-- **A whole number is read exactly** if it stays below `2 ^ 53` with one zero more. -/
theorem readExactly_ofInt {z : ℤ} (h : 10 * z.natAbs < 2 ^ 53) : ReadExactly (Float.ofInt z) := by
  have hpositive {n : ℕ} (hpos : 0 < n) (hlt : 10 * n < 2 ^ 53) :
      ∃ d, Holds (Float.ofNat n) d ∧ d.rational = n := by
    have hrange : InRange n := inRange_of_lt (k := 53) (by decide) (by omega)
    obtain ⟨d, hd, hn⟩ :=
      (standsFor_ofNat hrange).exists_holds (Nat.cast_pos.2 (nearest_pos hpos))
    rw [nearest_of_lt (by omega)] at hn
    exact ⟨d, hd, hn⟩
  cases z with
  | ofNat n =>
    rcases Nat.eq_zero_or_pos n with rfl | hpos
    · exact ⟨false, ⟨0, -1074⟩, by decide +kernel, by decide +kernel, by decide +kernel⟩
    · obtain ⟨d, hd, hn⟩ := hpositive hpos h
      exact readExactly_of_whole (hd.ofFloat_signed false) hd.held hn h
  | negSucc n =>
    obtain ⟨d, hd, hn⟩ := hpositive (Nat.succ_pos n) h
    exact readExactly_of_whole (hd.ofFloat_signed true) hd.held hn h

end

end HiddenEquation.Json
