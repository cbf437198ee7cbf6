import HiddenEquation.Proofs.Decimal.Unpacked
import Mathlib.Algebra.Order.Field.Rat

/-!
# The number that a double stands for

A finite double stands for a rational number, and `Binary64.rational?` is that number.

* `rational?_eq_of_beq` : doubles that compare equal stand for the same number.
* `isFinite_iff` : the finite doubles are those that stand for a number.
-/

namespace HiddenEquation.Decimal

open Float.Model

/-- The number itself. -/
def Dyadic.rational (d : Dyadic) : ℚ := d.significand * 2 ^ d.exponent

theorem Dyadic.rational_pos {d : Dyadic} (h : 0 < d.significand) : 0 < d.rational :=
  mul_pos (Nat.cast_pos.2 h) (zpow_pos two_pos _)

/-- A number with a sign in front. -/
def signed (s : UnpackedFloat.Sign) (r : ℚ) : ℚ := if isNegative s then -r else r

namespace Binary64

/-- The rational number that a double stands for, unless it is infinite or NaN. -/
def rational? : Binary64 → Option ℚ
  | .nan => none
  | .infinite _ => none
  | .finite negative d => some (if negative then -d.rational else d.rational)

theorem rational?_zero (s : UnpackedFloat.Sign) : (ofUnpacked (.zero s)).rational? = some 0 := by
  have hzero : (⟨0, minExponent⟩ : Dyadic).rational = 0 := by
    rw [Dyadic.rational, Nat.cast_zero, zero_mul]
  cases s with
  | negative => exact congrArg some (neg_eq_zero.2 hzero)
  | positive => exact congrArg some hzero

theorem rational?_positive {m : Nat} {e : Int} (hpos : 0 < m) :
    (ofUnpacked (.finite .positive m e hpos)).rational? = some ((m : ℚ) * 2 ^ e) := rfl

theorem rational?_neg (q : UnpackedFloat) :
    (ofUnpacked q.neg).rational? = (ofUnpacked q).rational?.map (- ·) := by
  cases q with
  | notANumber => rfl
  | infinity s => rfl
  | zero s =>
    rw [rational?_zero, Option.map_some, neg_zero]
    exact rational?_zero (-s)
  | finite s m e hpos =>
    cases s with
    | negative => exact congrArg some (neg_neg _).symm
    | positive => rfl

end Binary64

/-! ## Doubles -/

section

variable {x y : Float}

/-- Doubles that compare equal have the same parts, or are zeros of either sign. -/
theorem rational?_eq_of_beq (h : (x == y) = true) :
    (Binary64.ofFloat x).rational? = (Binary64.ofFloat y).rational? := by
  rw [Binary64.ofFloat_eq_ofUnpacked, Binary64.ofFloat_eq_ofUnpacked]
  change (unpacked x).beq (unpacked y) = true at h
  rcases eq_or_zeros_of_beq h with heq | ⟨s, t, hx, hy⟩
  · rw [heq]
  · rw [hx, hy, Binary64.rational?_zero, Binary64.rational?_zero]

theorem isFinite_iff :
    x.isFinite = true ↔ ∃ r, (Binary64.ofFloat x).rational? = some r := by
  rw [Binary64.ofFloat_eq_ofUnpacked]
  change (unpacked x).isFinite = true ↔ _
  cases unpacked x with
  | notANumber =>
    refine iff_of_false Bool.false_ne_true ?_
    rintro ⟨r, hr⟩
    cases hr
  | infinity s =>
    refine iff_of_false Bool.false_ne_true ?_
    rintro ⟨r, hr⟩
    cases hr
  | zero s => exact iff_of_true rfl ⟨_, rfl⟩
  | finite s m e hpos => exact iff_of_true rfl ⟨_, rfl⟩

theorem exists_ofFloat_of_isFinite (h : x.isFinite = true) :
    ∃ negative d, Binary64.ofFloat x = .finite negative d := by
  obtain ⟨r, hr⟩ := isFinite_iff.1 h
  cases hx : Binary64.ofFloat x with
  | nan =>
    rw [hx] at hr
    cases hr
  | infinite negative =>
    rw [hx] at hr
    cases hr
  | finite negative d => exact ⟨negative, d, rfl⟩

theorem beq_self_of_isFinite (h : x.isFinite = true) : (x == x) = true := by
  change (unpacked x).isFinite = true at h
  have hne : unpacked x ≠ .notANumber := by
    intro hnan
    rw [hnan] at h
    cases h
  exact beq_self_of_ne_notANumber hne

theorem rational?_ofFloat_neg (hx : Canonical (unpacked x)) :
    (Binary64.ofFloat x.neg).rational? = (Binary64.ofFloat x).rational?.map (- ·) := by
  rw [Binary64.ofFloat_eq_ofUnpacked, Binary64.ofFloat_eq_ofUnpacked, unpacked_neg hx,
    Binary64.rational?_neg]

end

end HiddenEquation.Decimal
