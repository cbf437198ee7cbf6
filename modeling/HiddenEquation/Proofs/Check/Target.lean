import HiddenEquation.Proofs.Check.Contract
import HiddenEquation.Proofs.Decimal.Nearest
import HiddenEquation.Proofs.Expr.Numeral

/-!
# The value of a valid guess

A guess is compared with the double next to the target, so its value is the target itself
only if the target is a double.  Of the targets with more than 53 significant bits none is
ever the value of a valid guess, although every one of them has valid guesses.

* `rational?_of_valid` : the value of a valid guess is the target rounded to 53 bits.
* `valid_value_eq_target_iff` : the targets that are the value of their valid guesses.
-/

namespace HiddenEquation

open Decimal

theorem natAbs_toInt_le (target : Int64) : target.toInt.natAbs ≤ 2 ^ 63 := by
  have hlo := target.le_toInt
  have hhi := target.toInt_lt
  omega

/-- No target is too great for a double. -/
theorem standsFor_targetFloat (target : Int64) :
    StandsFor (targetFloat target) (nearestInt target.toInt) := by
  have hle := natAbs_toInt_le target
  have hlog : target.toInt.natAbs.log2 ≤ 63 := by
    by_cases hzero : target.toInt.natAbs = 0
    · rw [hzero, Nat.log2_zero]
      exact Nat.zero_le 63
    · have hlt : target.toInt.natAbs < 2 ^ 64 := by omega
      exact Nat.le_of_lt_succ ((Nat.log2_lt hzero).2 hlt)
  exact standsFor_ofInt (by omega)

theorem isFinite_targetFloat (target : Int64) : (targetFloat target).isFinite = true :=
  isFinite_iff.2 ⟨_, (standsFor_targetFloat target).rational⟩

section

variable {guess : Guess} {target : Int64} {solution : Solution} {r : Verdict}

/-- The value of a valid guess is the target rounded to 53 bits. -/
theorem rational?_of_valid (h : checkGuess guess target solution = .ok r)
    (hvalid : r.valid = true) : ∃ v, r.value = some v ∧
      (Binary64.ofFloat v).rational? = some (nearestInt target.toInt : ℚ) := by
  obtain ⟨-, hgraded⟩ := isGraded_of_valid h hvalid
  obtain ⟨v, -, heq, hv⟩ := hgraded.evaluate
  refine ⟨v, hv, ?_⟩
  rw [rational?_eq_of_beq heq]
  exact (standsFor_targetFloat target).rational

theorem valid_of_evaluate {v : Float} (hlen : guess.length = solution.length)
    (hv : Expr.evaluate guess.chars = .ok v) (heq : (v == targetFloat target) = true) :
    ∃ r, checkGuess guess target solution = .ok r ∧ r.valid = true ∧ r.value = some v :=
  ⟨_, checkGuess_of_eq hlen hv heq, rfl, rfl⟩

end

/-- The target as it is written is a valid guess. -/
theorem evaluate_numeral_target (target : Int64) :
    Expr.evaluate (numeral target.toInt) = .ok (targetFloat target) := by
  have hle := natAbs_toInt_le target
  have hlen : (numeral target.toInt).length ≤ 20 :=
    length_numeral_le (k := 19) (by decide) (by omega)
  exact evaluate_numeral (hlen.trans (by decide)) (isFinite_targetFloat target)

/-- **The targets that are the value of their valid guesses** are the doubles.  Every target has
a valid guess, and no valid guess has a value that is the target if the target is no double. -/
theorem valid_value_eq_target_iff (target : Int64) :
    (∀ guess solution r, checkGuess guess target solution = .ok r → r.valid = true →
      ∃ v, r.value = some v ∧
        ((Binary64.ofFloat v).rational? = some (target.toInt : ℚ) ↔ IsDouble target.toInt)) ∧
    ∃ guess solution r, checkGuess guess target solution = .ok r ∧ r.valid = true := by
  constructor
  · intro guess solution r h hvalid
    obtain ⟨v, hv, hrational⟩ := rational?_of_valid h hvalid
    refine ⟨v, hv, ?_⟩
    rw [hrational, Option.some_inj, Int.cast_inj, nearestInt_eq_iff]
  · have hplain := glyph_not_mem_numeral target.toInt
    have hself := beq_self_of_isFinite (isFinite_targetFloat target)
    let guess : Guess := ⟨numeral target.toInt, hplain⟩
    let solution : Solution := ⟨numeral target.toInt, numeral_ne_nil _, hplain⟩
    have hlen : guess.length = solution.length := rfl
    obtain ⟨r, hr, hvalid, -⟩ := valid_of_evaluate hlen (evaluate_numeral_target target) hself
    exact ⟨guess, solution, r, hr, hvalid⟩

/-- The odd number after `2 ^ 53` is a target that a guess with another value meets. -/
theorem valid_of_value_ne_target :
    ∃ r v, checkGuess (.ofString "9007199254740992") 9007199254740993
        ⟨"9007199254740993".toList, by decide, by decide⟩ = .ok r ∧
      r.valid = true ∧ r.value = some v ∧
      (Binary64.ofFloat v).rational? = some 9007199254740992 ∧
      (9007199254740993 : Int64).toInt ≠ 9007199254740992 := by
  have hchars : (Guess.ofString "9007199254740992").chars = numeral 9007199254740992 := by decide
  have hstands : StandsFor (Float.ofInt 9007199254740992) (nearestInt 9007199254740992) :=
    standsFor_ofInt (by decide)
  have hnearest : nearestInt 9007199254740992 = 9007199254740992 := by decide
  have hfinite := isFinite_iff.2 ⟨_, hstands.rational⟩
  have hvalue : Expr.evaluate (Guess.ofString "9007199254740992").chars =
      .ok (Float.ofInt 9007199254740992) := by
    rw [hchars]
    exact evaluate_numeral (by decide) hfinite
  have heq : (Float.ofInt 9007199254740992 == targetFloat 9007199254740993) = true := by decide
  have hlen : (Guess.ofString "9007199254740992").length =
      (⟨"9007199254740993".toList, by decide, by decide⟩ : Solution).length := by decide
  obtain ⟨r, hr, hvalid, hv⟩ := valid_of_evaluate hlen hvalue heq
  refine ⟨r, _, hr, hvalid, hv, ?_, by decide⟩
  rw [hstands.rational, hnearest, Int.cast_ofNat]

end HiddenEquation
