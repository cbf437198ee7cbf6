import HiddenEquation.Proofs.Decimal.Finite
import HiddenEquation.Proofs.Expr.Evaluation
import HiddenEquation.Proofs.Expr.Part

/-!
# Overflow in the middle of an equation

Only the value of a whole equation is checked for being finite.  That is enough, since a part that
is not finite makes the whole so, wherever it stands but in a divisor, and the divisors of what is
parsed are signed numbers as they stand in the text.

* `Arithmetic.ShowsOverflow` : what is used of infinities, NaN and zero.
* `Expr.HasPart.finite_or_signed` : what can be hidden below a finite value.
* `Expr.overflow_not_hidden` : an equation that divides by zero is refused, and no part of one that
  is not refused has overflown.
-/

namespace HiddenEquation

variable {α : Type}

/-- A finite result has finite operands, but for a divisor, of which it is only known that it is
not zero. -/
structure Arithmetic.ShowsOverflow (A : Arithmetic α) (finite zero : α → Prop) : Prop where
  neg : ∀ x, finite (A.neg x) ↔ finite x
  operands : ∀ o x y, o ≠ .divide → finite (A.apply o x y) → finite x ∧ finite y
  quotient : ∀ x y, finite (A.apply .divide x y) → finite x ∧ ¬zero y

theorem showsOverflow_doubles :
    doubles.ShowsOverflow (fun x => x.isFinite = true) (fun x => (x == 0) = true) where
  neg x := by rw [doubles, Decimal.isFinite_neg]
  operands o x y ho h := by
    cases o with
    | plus => exact Decimal.isFinite_of_add h
    | minus => exact Decimal.isFinite_of_sub h
    | times => exact Decimal.isFinite_of_mul h
    | divide => exact absurd rfl ho
  quotient x y h := Decimal.isFinite_of_div h

namespace Expr

section

variable {A : Arithmetic α} {finite zero : α → Prop} {e p l r : Expr α}

theorem finite_left (hA : A.ShowsOverflow finite zero) {o : Operator}
    (h : finite ((binary o l r).eval A)) : finite (l.eval A) := by
  by_cases ho : o = .divide
  · subst ho
    exact (hA.quotient _ _ h).1
  · exact (hA.operands o _ _ ho h).1

/-- A part of a finite equation is finite, or lies in a signed number of it. -/
theorem HasPart.finite_or_signed (hA : A.ShowsOverflow finite zero) (h : e.HasPart p)
    (he : e.DividesByNumbers) (hfinite : finite (e.eval A)) :
    finite (p.eval A) ∨ ∃ x : Signed α, e.HasPart x.tree ∧ x.tree.HasPart p := by
  induction h with
  | whole e => exact Or.inl hfinite
  | operand h ih =>
    rcases ih he ((hA.neg _).1 hfinite) with hp | ⟨x, hx, hp⟩
    · exact Or.inl hp
    · exact Or.inr ⟨x, .operand hx, hp⟩
  | left o r h ih =>
    rcases ih he.1 (finite_left hA hfinite) with hp | ⟨x, hx, hp⟩
    · exact Or.inl hp
    · exact Or.inr ⟨x, .left o r hx, hp⟩
  | right o l h ih =>
    by_cases ho : o = .divide
    · -- of a divisor nothing is known, but it is a signed number itself
      obtain ⟨x, rfl⟩ := he.2.2 ho
      exact Or.inr ⟨x, .right o l (.whole _), h⟩
    · rcases ih he.2.1 (hA.operands o _ _ ho hfinite).2 with hp | ⟨x, hx, hp⟩
      · exact Or.inl hp
      · exact Or.inr ⟨x, .right o l hx, hp⟩

/-- **A finite equation divides by zero nowhere.** -/
theorem not_zero_divisor (hA : A.ShowsOverflow finite zero) (he : e.DividesByNumbers)
    (hfinite : finite (e.eval A)) (h : e.HasPart (.binary .divide l r)) : ¬zero (r.eval A) := by
  rcases h.finite_or_signed hA he hfinite with hp | ⟨x, -, hp⟩
  · exact (hA.quotient _ _ hp).2
  · exact absurd hp (not_hasPart_signed_binary x _ l r)

/-- **No part of a finite equation has overflown**, if its numbers have not. -/
theorem finite_part (hA : A.ShowsOverflow finite zero) (he : e.DividesByNumbers)
    (hnumbers : ∀ v, e.HasPart (.number v) → finite v) (hfinite : finite (e.eval A))
    (h : e.HasPart p) : finite (p.eval A) := by
  rcases h.finite_or_signed hA he hfinite with hp | ⟨⟨negated, v⟩, hx, hp⟩
  · exact hp
  · cases negated with
    | false =>
      obtain rfl := hasPart_number_iff.1 hp
      exact hnumbers v hx
    | true =>
      have hv : finite v := hnumbers v (hx.trans (.operand (.whole _)))
      rcases hasPart_neg_iff.1 hp with rfl | hp
      · exact (hA.neg v).2 hv
      · obtain rfl := hasPart_number_iff.1 hp
        exact hv

end

/-- **Overflow is not hidden.**  A text whose equation divides by a zero of either sign, whatever
else is in it, is refused for its value.  If all numbers of a text are finite and it has a value,
then every part of its equation is finite. -/
theorem overflow_not_hidden {s : List Char} {e : Expr Float}
    (h : parse (s.map plainSign) = .ok e) :
    ((∃ l r, e.HasPart (.binary .divide l r) ∧ (r.value == 0) = true) →
      evaluate s = .error (.nonFinite e.value)) ∧
    ((∀ ds, .number ds ∈ Text.lexemes (s.map plainSign) →
        (Decimal.digitsFloat ds).isFinite = true) →
      ∀ v, evaluate s = .ok v → ∀ p, e.HasPart p → p.value.isFinite = true) := by
  have hdivides := dividesByNumbers_of_parse h
  constructor
  · rintro ⟨l, r, hpart, hzero⟩
    rw [evaluate_of_parse h]
    exact finiteValue_of_not_isFinite fun hfinite =>
      not_zero_divisor showsOverflow_doubles hdivides hfinite hpart hzero
  · intro hnumbers v hv p hpart
    rw [evaluate_of_parse h, finiteValue_eq_ok_iff] at hv
    refine finite_part showsOverflow_doubles hdivides (fun u hu => ?_) hv.1 hpart
    obtain ⟨ds, hds, rfl⟩ := exists_digits_of_parse h hu
    exact hnumbers ds hds

/-- An infinite quotient is refused although it is only a factor of what is subtracted.  A quotient
that is no integer, in the same place, is a finite part of a finite equation. -/
theorem infinite_factor_refused :
    (∃ v, evaluate "2-1/0*3".toList = .error (.nonFinite v)) ∧
      ∀ p, ((binary .minus (number 2) (binary .times (binary .divide (number 1) (number 4))
        (number 3))).map Float.ofNat).HasPart p → p.value.isFinite = true := by
  constructor
  · have hparse : parse ("2-1/0*3".toList.map plainSign) = .ok ((binary .minus (number 2)
        (binary .times (binary .divide (number 1) (number 0)) (number 3))).map Float.ofNat) :=
      parse_of_readExact (by decide) (readExact_eq_ok_iff.2 ⟨by decide, ⟨⟨[], ['2']⟩,
        [(.minus, ⟨[], ['1']⟩), (.divide, ⟨[], ['0']⟩), (.times, ⟨[], ['3']⟩)]⟩, by decide, rfl⟩)
    exact ⟨_, (overflow_not_hidden hparse).1
      ⟨_, _, .right _ _ (.left _ _ (.whole _)), by decide⟩⟩
  · have hlexemes : Text.lexemes ("2-1/4*3".toList.map plainSign) = [.number ['2'],
        .operator .minus, .number ['1'], .operator .divide, .number ['4'], .operator .times,
        .number ['3']] := by decide
    have hparse : parse ("2-1/4*3".toList.map plainSign) = .ok ((binary .minus (number 2)
        (binary .times (binary .divide (number 1) (number 4)) (number 3))).map Float.ofNat) :=
      parse_of_readExact (by decide) (readExact_eq_ok_iff.2 ⟨by decide, ⟨⟨[], ['2']⟩,
        [(.minus, ⟨[], ['1']⟩), (.divide, ⟨[], ['4']⟩), (.times, ⟨[], ['3']⟩)]⟩, hlexemes, rfl⟩)
    have hvalue : ∃ v, evaluate "2-1/4*3".toList = .ok v := by
      rw [evaluate_of_parse hparse]
      exact ⟨_, finiteValue_eq_ok_iff.2 ⟨by decide, rfl⟩⟩
    obtain ⟨v, hv⟩ := hvalue
    refine (overflow_not_hidden hparse).2 (fun ds hds => ?_) v hv
    rw [hlexemes] at hds
    have hcases : ds = ['2'] ∨ ds = ['1'] ∨ ds = ['4'] ∨ ds = ['3'] := by simpa using hds
    rcases hcases with rfl | rfl | rfl | rfl <;> decide

end Expr

end HiddenEquation
