import HiddenEquation.Proofs.Decimal.Arithmetic
import HiddenEquation.Proofs.Decimal.Finite
import HiddenEquation.Proofs.Json.Numeral

/-!
# Doubles as a player reads them

A finite double without a minus sign is written with digits and at most one point.  What the text
stands for is nearest to that double and to no other, so the text says which double it is.  A whole
number is written as an equation may hold it, with digits alone, and the digits read back to it.

* `Dyadic.Held.eq_of_attracts` : a number is nearest to one double only.
* `plain_inj` : doubles that are written alike are the same.
* `digitsFloat_plain` : the text of a finite whole number reads back to it.
-/

namespace HiddenEquation.Decimal

open Float.Model

/-! ## To which double a number is nearest -/

namespace Dyadic

variable {c d : Dyadic} {q : ℚ}

theorem Attracts.lt_upperEnd (h : d.Attracts q) (hodd : d.significand % 2 = 1) :
    q < d.upperEnd := by
  rw [Attracts, if_neg (by omega)] at h
  exact h.2

theorem Attracts.lowerEnd_lt (h : d.Attracts q) (hodd : d.significand % 2 = 1) :
    d.lowerEnd < q := by
  rw [Attracts, if_neg (by omega)] at h
  exact h.1

/-- With one exponent the nearest numbers lie in the order of the significands. -/
theorem Attracts.not_of_significand_lt (hc : c.Attracts q) (hexp : c.exponent = d.exponent)
    (hlt : c.significand < d.significand) : ¬d.Attracts q := by
  intro hd
  have hunit := zpow_pos (two_pos : (0 : ℚ) < 2) (d.exponent - 2)
  have hends : c.upperEnd ≤ d.lowerEnd := by
    have hreach := d.reach_le
    rw [upperEnd, lowerEnd, hexp, mul_le_mul_iff_of_pos_right hunit, Nat.cast_le]
    omega
  have hle := hc.le_upperEnd
  have hge := hd.lowerEnd_le
  -- if the ends meet then one of the significands is odd, and its end is left out
  rcases Nat.mod_two_eq_zero_or_one c.significand with hodd | hodd
  · rcases Nat.mod_two_eq_zero_or_one d.significand with hodd' | hodd'
    · have hapart : c.upperEnd < d.lowerEnd := by
        have hreach := d.reach_le
        rw [upperEnd, lowerEnd, hexp, mul_lt_mul_iff_of_pos_right hunit, Nat.cast_lt]
        omega
      linarith
    · linarith [hd.lowerEnd_lt hodd']
  · linarith [hc.lt_upperEnd hodd]

/-- The nearest numbers stay below those of every double with a greater exponent: the end of the
last of them, which is odd, is left out. -/
theorem Held.lt_of_attracts (hd : d.Held) (h : d.Attracts q) :
    q < (2 ^ 55 - 2 : ℕ) * 2 ^ (d.exponent - 2) := by
  have hunit := zpow_pos (two_pos : (0 : ℚ) < 2) (d.exponent - 2)
  have hlt := hd.lt
  by_cases hlast : d.significand = 2 ^ 53 - 1
  · refine (h.lt_upperEnd (by omega)).trans_eq ?_
    rw [upperEnd, hlast]
    norm_num
  · refine h.le_upperEnd.trans_lt ?_
    rw [upperEnd, mul_lt_mul_iff_of_pos_right hunit, Nat.cast_lt]
    omega

theorem Held.le_of_attracts (hd : d.Held) (h : d.Attracts q) {e : ℤ} (he : -1074 ≤ e)
    (hlt : e < d.exponent) : (2 ^ 55 - 2 : ℕ) * 2 ^ (e - 2) ≤ q := by
  refine le_trans ?_ h.lowerEnd_le
  obtain ⟨k, hk⟩ : ∃ k : ℕ, d.exponent - 2 = e - 2 + (k + 1 : ℕ) :=
    ⟨(d.exponent - e - 1).toNat, by omega⟩
  rw [lowerEnd, hk, two_zpow_add_natCast, ← mul_assoc,
    mul_le_mul_iff_of_pos_right (zpow_pos two_pos _), ← Nat.cast_mul, Nat.cast_le]
  have hfull : 2 ^ 52 ≤ d.significand := hd.normal.resolve_right (by omega)
  have hquarters : 2 ^ 54 - 1 ≤ 4 * d.significand - d.reach := by
    by_cases hpower : d.significand = 2 ^ 52
    · have hreach : d.reach = 1 := if_pos ⟨hpower, by rw [Binary64.minExponent]; omega⟩
      omega
    · have hreach := d.reach_le
      omega
  calc 2 ^ 55 - 2 = (2 ^ 54 - 1) * 2 ^ 1 := rfl
    _ ≤ _ := Nat.mul_le_mul hquarters (Nat.pow_le_pow_right (by decide) (by omega))

theorem Held.exponent_le_of_attracts (hc : c.Held) (hd : d.Held) (hcq : c.Attracts q)
    (hdq : d.Attracts q) : d.exponent ≤ c.exponent := by
  by_contra hlt
  exact absurd (hc.lt_of_attracts hcq)
    (not_lt.2 (hd.le_of_attracts hdq hc.lo (not_le.1 hlt)))

/-- **A number is nearest to one double only.** -/
theorem Held.eq_of_attracts (hc : c.Held) (hd : d.Held) (hcq : c.Attracts q)
    (hdq : d.Attracts q) : c = d := by
  have hexp : c.exponent = d.exponent :=
    le_antisymm (hd.exponent_le_of_attracts hc hdq hcq) (hc.exponent_le_of_attracts hd hcq hdq)
  rcases Nat.lt_trichotomy c.significand d.significand with hlt | heq | hgt
  · exact absurd hdq (hcq.not_of_significand_lt hexp hlt)
  · obtain ⟨m, e⟩ := c
    obtain ⟨m', e'⟩ := d
    obtain rfl : m = m' := heq
    obtain rfl : e = e' := hexp
    rfl
  · exact absurd hcq (hdq.not_of_significand_lt hexp.symm hgt)

end Dyadic

/-! ## The text of a decimal number -/

/-- The number that digits stand for, with a point among them or without. -/
def pointedValue (t : List Char) : ℚ :=
  digitsValue (t.filter (· ≠ '.')) / 10 ^ (t.dropWhile (· ≠ '.')).tail.length

section

variable {ds whole frac : List Char}

theorem ne_point_of_isDigit {c : Char} (h : c.isDigit = true) : c ≠ '.' := by
  rintro rfl
  exact absurd h (by decide)

theorem filter_ne_point (hds : ∀ c ∈ ds, c.isDigit = true) : ds.filter (· ≠ '.') = ds :=
  List.filter_eq_self.2 fun c hc => decide_eq_true (ne_point_of_isDigit (hds c hc))

theorem pointedValue_digits (hds : ∀ c ∈ ds, c.isDigit = true) :
    pointedValue ds = digitsValue ds := by
  have hdrop : ds.dropWhile (· ≠ '.') = [] :=
    List.dropWhile_eq_nil_iff.2 fun c hc => decide_eq_true (ne_point_of_isDigit (hds c hc))
  rw [pointedValue, filter_ne_point hds, hdrop]
  simp

theorem pointedValue_point (hwhole : ∀ c ∈ whole, c.isDigit = true)
    (hfrac : ∀ c ∈ frac, c.isDigit = true) :
    pointedValue (whole ++ '.' :: frac) = digitsValue (whole ++ frac) / 10 ^ frac.length := by
  have hdrop : (whole ++ '.' :: frac).dropWhile (· ≠ '.') = '.' :: frac := by
    rw [List.dropWhile_append_of_pos fun c hc =>
      decide_eq_true (ne_point_of_isDigit (hwhole c hc))]
    rfl
  have hfilter : (whole ++ '.' :: frac).filter (· ≠ '.') = whole ++ frac := by
    rw [List.filter_append, filter_ne_point hwhole, List.filter_cons_of_neg (by simp),
      filter_ne_point hfrac]
  rw [pointedValue, hfilter, hdrop, List.tail_cons]

end

namespace Style

variable {s : Scaled}

theorem toList_writePositional_plain (h : 0 ≤ s.exponent) : (plain.writePositional s).toList =
    Nat.toDigits 10 s.coefficient ++ List.replicate s.exponent.toNat '0' :=
  (Json.toList_writePositional plain h).trans (List.append_nil _)

/-- Without a fraction a number is written as an equation may hold it. -/
theorem isNumber_writePositional (hs : 0 < s.coefficient ∨ s.exponent = 0)
    (h : 0 ≤ s.exponent) : Text.IsNumber (plain.writePositional s).toList := by
  rw [toList_writePositional_plain h]
  exact Json.isNumber_zeros (by omega)

/-- **The text stands for the number.** -/
theorem pointedValue_writePositional (hs : 0 < s.coefficient ∨ s.exponent = 0) :
    pointedValue (plain.writePositional s).toList = s.coefficient * 10 ^ s.exponent := by
  by_cases h : 0 ≤ s.exponent
  · rw [pointedValue_digits (isNumber_writePositional hs h).isDigit,
      toList_writePositional_plain h, Json.digitsValue_toDigits_zeros]
    push_cast
    rw [← zpow_natCast, Int.toNat_of_nonneg h]
  · obtain ⟨whole, frac, htext, hwhole, hfrac, hlen, hvalue⟩ :=
      Json.exists_writePositional plain (by omega : 0 < s.coefficient) (not_le.1 h)
    rw [htext, pointedValue_point hwhole.isDigit hfrac, hvalue, ← zpow_natCast, hlen, zpow_neg,
      div_inv_eq_mul]

theorem writePositional_ne_nil (hs : 0 < s.coefficient ∨ s.exponent = 0) :
    (plain.writePositional s).toList ≠ [] := by
  by_cases h : 0 ≤ s.exponent
  · exact (isNumber_writePositional hs h).ne_nil
  · obtain ⟨whole, frac, htext, -⟩ :=
      Json.exists_writePositional plain (by omega : 0 < s.coefficient) (not_le.1 h)
    rw [htext]
    exact List.append_ne_nil_of_right_ne_nil _ (List.cons_ne_nil _ _)

theorem isDigit_or_point_of_mem (hs : 0 < s.coefficient ∨ s.exponent = 0) {c : Char}
    (hc : c ∈ (plain.writePositional s).toList) : c.isDigit = true ∨ c = '.' := by
  by_cases h : 0 ≤ s.exponent
  · exact Or.inl ((isNumber_writePositional hs h).isDigit c hc)
  · obtain ⟨whole, frac, htext, hwhole, hfrac, -⟩ :=
      Json.exists_writePositional plain (by omega : 0 < s.coefficient) (not_le.1 h)
    rw [htext] at hc
    rcases List.mem_append.1 hc with hc | hc
    · exact Or.inl (hwhole.isDigit c hc)
    · rcases List.mem_cons.1 hc with hc | hc
      · exact Or.inr hc
      · exact Or.inl (hfrac c hc)

end Style

/-! ## The text of a double -/

section

variable {x y : Float} {d : Dyadic}

/-- A finite double with a clear sign bit. -/
theorem exists_ofFloat_of_lt (hfinite : x.isFinite = true) (hsign : x.toBits.toNat < 2 ^ 63) :
    ∃ d, Binary64.ofFloat x = .finite false d := by
  obtain ⟨negative, d, hx⟩ := exists_ofFloat_of_isFinite hfinite
  cases negative with
  | false => exact ⟨d, hx⟩
  | true =>
    have hword := Binary64.eq_word x.toBits.toNat_lt hx
    rw [Binary64.word, if_pos rfl] at hword
    omega

theorem plain_eq (hx : Binary64.ofFloat x = .finite false d) :
    plain x = Style.plain.writePositional (shortest .up d) := by
  rw [plain, Style.write, hx]
  exact String.empty_append

theorem coefficient_pos_or (hx : Binary64.ofFloat x = .finite false d) :
    0 < (shortest .up d).coefficient ∨ (shortest .up d).exponent = 0 := by
  rcases eq_zero_or_held_of_ofFloat hx with rfl | hd
  · exact Or.inr rfl
  · exact Or.inl (isShort_shortest .up hd).pos

theorem plain_ne_nil (hx : Binary64.ofFloat x = .finite false d) : (plain x).toList ≠ [] := by
  rw [plain_eq hx]
  exact Style.writePositional_ne_nil (coefficient_pos_or hx)

theorem isDigit_or_point_of_mem_plain (hx : Binary64.ofFloat x = .finite false d) {c : Char}
    (hc : c ∈ (plain x).toList) : c.isDigit = true ∨ c = '.' := by
  rw [plain_eq hx] at hc
  exact Style.isDigit_or_point_of_mem (coefficient_pos_or hx) hc

/-- **Doubles that are written alike are the same.** -/
theorem plain_inj {c : Dyadic} (hx : Binary64.ofFloat x = .finite false c)
    (hy : Binary64.ofFloat y = .finite false d) (h : plain x = plain y) : x = y := by
  have hvalue : ((shortest .up c).coefficient : ℚ) * 10 ^ (shortest .up c).exponent =
      (shortest .up d).coefficient * 10 ^ (shortest .up d).exponent := by
    rw [← Style.pointedValue_writePositional (coefficient_pos_or hx), ← plain_eq hx, h,
      plain_eq hy, Style.pointedValue_writePositional (coefficient_pos_or hy)]
  have hpos {b : Dyadic} (hb : b.Held) :
      ((shortest .up b).coefficient : ℚ) * 10 ^ (shortest .up b).exponent ≠ 0 :=
    mul_ne_zero (Nat.cast_ne_zero.2 (isShort_shortest .up hb).pos.ne')
      (zpow_ne_zero _ (by norm_num))
  have hzero : ((shortest .up ⟨0, -1074⟩).coefficient : ℚ) *
      10 ^ (shortest .up ⟨0, -1074⟩).exponent = 0 := by
    rw [shortest, if_pos rfl, Nat.cast_zero, zero_mul]
  suffices hcd : c = d by
    subst hcd
    exact eq_of_ofFloat hx hy
  rcases eq_zero_or_held_of_ofFloat hx with rfl | hc
  · rcases eq_zero_or_held_of_ofFloat hy with rfl | hd
    · rfl
    · exact absurd (hvalue.symm.trans hzero) (hpos hd)
  · rcases eq_zero_or_held_of_ofFloat hy with rfl | hd
    · exact absurd (hvalue.trans hzero) (hpos hc)
    · exact hc.eq_of_attracts hd (isShort_shortest .up hc).attracts
        (hvalue ▸ (isShort_shortest .up hd).attracts)

end

/-! ## Whole numbers -/

section

variable {n : ℕ} {d : Dyadic}

theorem isFinite_ofModel_pack (s : UnpackedFloat.Sign) {m : ℕ} {e : ℤ} (hpos : 0 < m)
    (he : 972 ≤ e) : (Float.ofModel (.pack (.finite s m e hpos))).isFinite = false := by
  change (UnpackedFloat.unpack Format.binary64
    (UnpackedFloat.pack Format.binary64 (.finite s m e hpos))).isFinite = false
  rw [pack_overflow s hpos he, unpack_pack (.infinity s)]
  rfl

/-- **A whole number that is too great for a double becomes infinite.** -/
theorem inRange_of_isFinite (h : (Float.ofNat n).isFinite = true) : InRange n := by
  by_contra hrange
  have hlong : 2 ^ 53 ≤ n := by
    by_contra hlt
    exact hrange (inRange_of_lt (by decide : 53 ≤ 1023) (not_le.1 hlt))
  rw [InRange, not_or, not_and, not_le, not_lt] at hrange
  obtain ⟨hlog, hround⟩ := hrange
  have hlog' : (n * 2 ^ 53).log2 = 52 + (n.log2 - 52 + 53) := by
    rw [log2_mul_two_pow (by omega)]
    omega
  have hscaled : roundDiv (n * 2 ^ 53) (2 ^ (n.log2 - 52 + 53)) =
      roundDiv n (2 ^ (n.log2 - 52)) := by
    rw [Nat.pow_add, roundDiv_mul_right _ _ (Nat.two_pow_pos 53)]
  obtain ⟨hlo, hhi⟩ := roundDiv_div_log2_bounds (n := n * 2 ^ 53) (d := 1)
    (k := n.log2 - 52 + 53) (by rw [Nat.div_one, hlog'])
  rw [Nat.one_mul, hscaled] at hlo hhi
  -- the significand may be rounded up to one bit more
  obtain ⟨j, hcarry, hj⟩ : ∃ j : ℕ, (roundDiv n (2 ^ (n.log2 - 52))).log2 = 52 + j ∧
      (n.log2 = 1023 → 1 ≤ j) := by
    by_cases hlt : roundDiv n (2 ^ (n.log2 - 52)) < 2 ^ 53
    · exact ⟨0, (Nat.log2_eq_iff (by omega)).2 ⟨hlo, hlt⟩, fun heq => by have := hround heq; omega⟩
    · refine ⟨1, ?_, fun _ => le_refl 1⟩
      rw [le_antisymm hhi (not_lt.1 hlt), Nat.log2_two_pow]
  have hpos : 0 < roundDiv (n * 2 ^ 53) (2 ^ (n.log2 - 52 + 53)) / 2 ^ j := by
    rw [hscaled]
    refine Nat.div_pos ?_ (Nat.two_pow_pos j)
    calc 2 ^ j ≤ 2 ^ (52 + j) := Nat.pow_le_pow_right (by decide) (by omega)
      _ ≤ _ := hcarry ▸ Nat.log2_self_le (by omega)
  rw [ofNat_of_le hlong, roundWithAccuracy_eq .positive hlog' (by omega)
    (by rw [hscaled, hcarry]) hpos, isFinite_ofModel_pack _ hpos (by omega)] at h
  exact Bool.false_ne_true h

/-- A positive whole number that stays finite becomes the double next to it. -/
theorem exists_holds_ofNat (hn : 0 < n) (h : (Float.ofNat n).isFinite = true) :
    ∃ d, Holds (Float.ofNat n) d ∧ d.rational = nearest n :=
  (standsFor_ofNat (inRange_of_isFinite h)).exists_holds (Nat.cast_pos.2 (nearest_pos hn))

/-- Only zero becomes a double that may not be divided by. -/
theorem ofNat_beq_zero_iff : (Float.ofNat n == 0) = true ↔ n = 0 := by
  constructor
  · intro hzero
    by_contra hne
    obtain ⟨s, hs⟩ := unpacked_of_beq_zero hzero
    have hfinite : (unpacked (Float.ofNat n)).isFinite = true := by rw [hs]; rfl
    obtain ⟨d, hd, -⟩ := exists_holds_ofNat (Nat.pos_of_ne_zero hne) hfinite
    have hunpacked := hd.unpacked
    rw [hs] at hunpacked
    cases hunpacked
  · rintro rfl
    decide

/-- **A whole number becomes the double to which it is nearest.** -/
theorem holds_ofNat_of_attracts (hd : d.Held) (h : d.Attracts n) : Holds (Float.ofNat n) d := by
  have hn : 0 < n :=
    Nat.cast_pos.1 ((Dyadic.lowerEnd_pos hd.pos).trans_le h.lowerEnd_le)
  by_cases hlt : n < 2 ^ 53
  · obtain ⟨c, hc, hrational⟩ :=
      (standsFor_ofNat_of_lt hn hlt).exists_holds (Nat.cast_pos.2 hn)
    have hself := Dyadic.attracts_rational hc.held.pos
    rw [hrational] at hself
    rwa [← hc.held.eq_of_attracts hd hself h]
  · have hlong : 2 ^ 53 ≤ n := not_lt.1 hlt
    have hlog : (n * 2 ^ 53).log2 = 52 + (n.log2 + 1) := by
      rw [log2_mul_two_pow hn]
      omega
    have hvalue : ((n * 2 ^ 53 : ℕ) : ℚ) / (1 : ℕ) * 2 ^ (-(53 : ℕ) : ℤ) = n := by
      rw [Nat.cast_one, div_one, Nat.cast_mul, Nat.cast_pow, zpow_neg, zpow_natCast,
        Nat.cast_ofNat, mul_inv_cancel_right₀ (by norm_num)]
    have hround := roundWithAccuracy_of_attracts .positive (e := -(53 : ℕ)) Nat.one_pos
      (by rwa [Nat.div_one]) (by omega) hd (by rwa [hvalue])
    rw [accuracyOfFraction_one, Nat.div_one] at hround
    rw [ofNat_of_le hlong]
    exact .ofModel_pack hd hround

/-- The shortest digits of a finite whole number, with zeros behind them, are a whole number that
becomes the same double. -/
theorem exists_whole_shortest (h : (Float.ofNat n).isFinite = true) :
    ∃ d, Binary64.ofFloat (Float.ofNat n) = .finite false d ∧
      0 ≤ (shortest .up d).exponent ∧
      Float.ofNat ((shortest .up d).coefficient * 10 ^ (shortest .up d).exponent.toNat) =
        Float.ofNat n := by
  rcases Nat.eq_zero_or_pos n with rfl | hn
  · exact ⟨⟨0, -1074⟩, rfl, le_refl 0, rfl⟩
  · obtain ⟨d, hd, hrational⟩ := exists_holds_ofNat hn h
    have hexp := exponent_shortest_nonneg .up hd.held hrational
    have hattracts : d.Attracts ((shortest .up d).coefficient *
        10 ^ (shortest .up d).exponent.toNat : ℕ) := by
      push_cast
      rw [← zpow_natCast, Int.toNat_of_nonneg hexp]
      exact (isShort_shortest .up hd.held).attracts
    exact ⟨d, hd.ofFloat_signed false, hexp, eq_of_ofFloat
      ((holds_ofNat_of_attracts hd.held hattracts).ofFloat_signed false) (hd.ofFloat_signed false)⟩

/-- **The text of a finite whole number** is one that an equation may hold, and reads back to the
number. -/
theorem digitsFloat_plain (h : (Float.ofNat n).isFinite = true) :
    Text.IsNumber (plain (Float.ofNat n)).toList ∧
      digitsFloat (plain (Float.ofNat n)).toList = Float.ofNat n := by
  obtain ⟨d, hd, hexp, hself⟩ := exists_whole_shortest h
  rw [plain_eq hd, digitsFloat, ← hself]
  refine ⟨Style.isNumber_writePositional (coefficient_pos_or hd) hexp, ?_⟩
  rw [Style.toList_writePositional_plain hexp, Json.digitsValue_toDigits_zeros]

end

end HiddenEquation.Decimal
