import HiddenEquation.Proofs.Decimal.Arithmetic

/-!
# Infinities and NaN in computations

Once a computation has left the finite doubles it does not come back, with one exception: dividing
by an infinity.  Dividing by zero leaves them for certain.

* `canonical_unpacked` : every double is held in its one form.
* `isFinite_neg` : the sign does not matter.
* `isFinite_of_add`, `isFinite_of_sub`, `isFinite_of_mul` : a finite result has finite operands.
* `isFinite_of_div` : a finite quotient has a finite dividend and a divisor that is not zero.
-/

namespace HiddenEquation.Decimal

open Float.Model

/-- Every double is held in its one form. -/
theorem canonical_unpacked (x : Float) : Canonical (unpacked x) := by
  have hparts := Binary64.ofFloat_eq_ofUnpacked x
  cases hq : unpacked x with
  | notANumber => exact .notANumber
  | infinity s => exact .infinity s
  | zero s => exact .zero s
  | finite s m e hpos =>
    rw [hq] at hparts
    rcases eq_zero_or_held_of_ofFloat hparts with hzero | hheld
    · cases hzero
      exact absurd hpos (Nat.lt_irrefl 0)
    · exact hheld.canonical s

/-! ## Numbers whose parts lie apart -/

section

variable {p q : UnpackedFloat}

/-- Packing may overflow, but makes nothing finite. -/
theorem isFinite_of_pack (h : (Float.ofModel (.pack q)).isFinite = true) : q.isFinite = true := by
  cases q with
  | notANumber => exact h
  | infinity s => cases s <;> exact h
  | zero s => rfl
  | finite s m e hpos => rfl

theorem isFinite_of_unpacked_add (h : (UnpackedFloat.add Format.binary64 p q).isFinite = true) :
    p.isFinite = true ∧ q.isFinite = true := by
  cases p with
  | notANumber => exact absurd h Bool.false_ne_true
  | infinity s =>
    cases q with
    | infinity s' =>
      change (if (s == s') = true then UnpackedFloat.infinity s else .notANumber).isFinite =
        true at h
      split at h <;> exact absurd h Bool.false_ne_true
    | _ => exact absurd h Bool.false_ne_true
  | _ =>
    cases q with
    | notANumber => exact absurd h Bool.false_ne_true
    | infinity s => exact absurd h Bool.false_ne_true
    | _ => exact ⟨rfl, rfl⟩

theorem apply_neg_sign (s : UnpackedFloat.Sign) (n : ℤ) : (-s).apply n = -s.apply n := by
  cases s with
  | negative => exact (Int.neg_neg n).symm
  | positive => rfl

/-- A difference is the sum with the negated number. -/
theorem unpacked_sub_eq (p q : UnpackedFloat) : UnpackedFloat.sub Format.binary64 p q =
    UnpackedFloat.add Format.binary64 p q.neg := by
  cases p with
  | finite s m e hpos =>
    cases q with
    | finite s' m' e' hpos' =>
      rw [sub_finite, Int.sub_eq_add_neg, ← apply_neg_sign]
      exact (add_finite s (-s') hpos hpos').symm
    | _ => rfl
  | _ => cases q <;> rfl

theorem isFinite_unpacked_neg (q : UnpackedFloat) : q.neg.isFinite = q.isFinite := by
  cases q <;> rfl

theorem isFinite_of_unpacked_mul (h : (UnpackedFloat.mul Format.binary64 p q).isFinite = true) :
    p.isFinite = true ∧ q.isFinite = true := by
  cases p with
  | notANumber => exact absurd h Bool.false_ne_true
  | infinity s => cases q <;> exact absurd h Bool.false_ne_true
  | _ =>
    cases q with
    | notANumber => exact absurd h Bool.false_ne_true
    | infinity s => exact absurd h Bool.false_ne_true
    | _ => exact ⟨rfl, rfl⟩

/-- A divisor may be infinite and the quotient finite. -/
theorem isFinite_of_unpacked_div (h : (UnpackedFloat.div Format.binary64 p q).isFinite = true) :
    p.isFinite = true ∧ ∀ s, q ≠ .zero s := by
  cases p with
  | notANumber => exact absurd h Bool.false_ne_true
  | infinity s => cases q <;> exact absurd h Bool.false_ne_true
  | _ =>
    cases q with
    | notANumber => exact absurd h Bool.false_ne_true
    | zero s => exact absurd h Bool.false_ne_true
    | _ => exact ⟨rfl, by rintro s ⟨⟩⟩

end

/-! ## Doubles -/

section

variable {x y : Float}

/-- A double that compares equal to zero is a zero of either sign. -/
theorem unpacked_of_beq_zero (h : (x == 0) = true) : ∃ s, unpacked x = .zero s := by
  rcases eq_or_zeros_of_beq h with hzero | ⟨s, -, hzero, -⟩
  · exact ⟨.positive, hzero⟩
  · exact ⟨s, hzero⟩

theorem isFinite_neg (x : Float) : (-x).isFinite = x.isFinite := by
  change (unpacked x.neg).isFinite = (unpacked x).isFinite
  rw [unpacked_neg (canonical_unpacked x), isFinite_unpacked_neg]

theorem isFinite_of_add (h : (x + y).isFinite = true) : x.isFinite = true ∧ y.isFinite = true :=
  isFinite_of_unpacked_add (isFinite_of_pack h)

theorem float_sub_eq (x y : Float) : x - y = x + -y := by
  change Float.ofModel (.pack (UnpackedFloat.sub Format.binary64 (unpacked x) (unpacked y))) =
    .ofModel (.pack (UnpackedFloat.add Format.binary64 (unpacked x) (unpacked y.neg)))
  rw [unpacked_neg (canonical_unpacked y), unpacked_sub_eq]

theorem isFinite_of_sub (h : (x - y).isFinite = true) :
    x.isFinite = true ∧ y.isFinite = true := by
  rw [float_sub_eq] at h
  obtain ⟨hx, hy⟩ := isFinite_of_add h
  rw [isFinite_neg] at hy
  exact ⟨hx, hy⟩

theorem isFinite_of_mul (h : (x * y).isFinite = true) : x.isFinite = true ∧ y.isFinite = true :=
  isFinite_of_unpacked_mul (isFinite_of_pack h)

theorem isFinite_of_div (h : (x / y).isFinite = true) :
    x.isFinite = true ∧ ¬(y == 0) = true := by
  obtain ⟨hx, hy⟩ := isFinite_of_unpacked_div (isFinite_of_pack h)
  refine ⟨hx, fun hzero => ?_⟩
  obtain ⟨s, hs⟩ := unpacked_of_beq_zero hzero
  exact hy s hs

end

end HiddenEquation.Decimal
