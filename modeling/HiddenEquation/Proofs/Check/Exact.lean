import HiddenEquation.Proofs.Check.Target
import HiddenEquation.Proofs.Decimal.Exact
import HiddenEquation.Proofs.Expr.Part

/-!
# Equations over integers

As long as every part of an equation is an integer below `2 ^ 53`, nothing is rounded: the value in
doubles is the value in rational numbers, and the one target that it meets is that integer, even
among the targets that are rounded themselves.

* `Expr.exactValue` : the value in rational numbers.
* `Expr.StaysSafe` : every part is an integer below `2 ^ 53`, and nothing is divided by zero.
* `Expr.StaysSafe.standsFor_value` : such a tree is computed exactly.
* `checkGuess_exact` : the answers to a guess that spells such a tree.
-/

namespace HiddenEquation

open Decimal

/-- The arithmetic of rational numbers. -/
def rationals : Arithmetic ℚ where
  apply
    | .plus => (· + ·)
    | .minus => (· - ·)
    | .times => (· * ·)
    | .divide => (· / ·)
  neg := (- ·)

namespace Expr

/-- The value of a tree in rational numbers. -/
def exactValue (e : Expr ℕ) : ℚ := (e.map (Nat.cast : ℕ → ℚ)).eval rationals

/-- Every part of the tree is an integer below `2 ^ 53`, and nothing is divided by zero. -/
structure StaysSafe (e : Expr ℕ) : Prop where
  part : ∀ p, e.HasPart p → IsSafe p.exactValue
  divisor : ∀ l r, e.HasPart (.binary .divide l r) → r.exactValue ≠ 0

variable {e l r : Expr ℕ} {o : Operator}

theorem StaysSafe.of_hasPart {p : Expr ℕ} (h : e.StaysSafe) (hp : e.HasPart p) : p.StaysSafe :=
  ⟨fun q hq => h.part q (hp.trans hq), fun l r hlr => h.divisor l r (hp.trans hlr)⟩

theorem staysSafe_number_iff {n : ℕ} : (number n).StaysSafe ↔ n < 2 ^ 53 := by
  rw [← isSafe_natCast_iff]
  constructor
  · exact fun h => h.part _ (.whole _)
  · intro hn
    refine ⟨fun p hp => ?_, fun l r hp => ?_⟩
    · obtain rfl := hasPart_number_iff.1 hp
      exact hn
    · cases hasPart_number_iff.1 hp

theorem staysSafe_neg_iff : (neg e).StaysSafe ↔ e.StaysSafe := by
  constructor
  · exact fun h => h.of_hasPart (.operand (.whole e))
  · intro h
    refine ⟨fun p hp => ?_, fun l r hp => ?_⟩
    · rcases hasPart_neg_iff.1 hp with rfl | hp
      · exact (h.part e (.whole e)).neg
      · exact h.part p hp
    · rcases hasPart_neg_iff.1 hp with heq | hp
      · cases heq
      · exact h.divisor l r hp

theorem staysSafe_binary_iff : (binary o l r).StaysSafe ↔ l.StaysSafe ∧ r.StaysSafe ∧
    IsSafe (binary o l r).exactValue ∧ (o = .divide → r.exactValue ≠ 0) := by
  constructor
  · intro h
    exact ⟨h.of_hasPart (.left o r (.whole l)), h.of_hasPart (.right o l (.whole r)),
      h.part _ (.whole _), fun ho => h.divisor l r (ho ▸ .whole _)⟩
  · rintro ⟨hl, hr, hsafe, hzero⟩
    refine ⟨fun p hp => ?_, fun l' r' hp => ?_⟩
    · rcases hasPart_binary_iff.1 hp with rfl | hp | hp
      · exact hsafe
      · exact hl.part p hp
      · exact hr.part p hp
    · rcases hasPart_binary_iff.1 hp with heq | hp | hp
      · cases heq
        exact hzero rfl
      · exact hl.divisor l' r' hp
      · exact hr.divisor l' r' hp

/-- **A tree that stays among the safe integers is computed exactly.** -/
theorem StaysSafe.standsFor_value (h : e.StaysSafe) :
    StandsFor (e.map Float.ofNat).value e.exactValue := by
  induction e with
  | number n =>
    have hn := staysSafe_number_iff.1 h
    have hstands := standsFor_ofNat (inRange_of_lt (by decide) hn)
    rwa [nearest_of_lt hn] at hstands
  | neg e ih => exact (ih (staysSafe_neg_iff.1 h)).neg
  | binary o l r ihl ihr =>
    obtain ⟨hl, hr, hsafe, hzero⟩ := staysSafe_binary_iff.1 h
    have hlsafe := hl.part l (.whole l)
    have hrsafe := hr.part r (.whole r)
    cases o with
    | plus => exact (ihl hl).add (ihr hr) hsafe
    | minus => exact (ihl hl).sub (ihr hr) hsafe
    | times => exact (ihl hl).mul (ihr hr) hlsafe hrsafe hsafe
    | divide => exact (ihl hl).div (ihr hr) hlsafe hrsafe (hzero rfl) hsafe

end Expr

/-- A guess is read as the text from which it is made. -/
theorem Expr.evaluate_ofChars (s : List Char) :
    Expr.evaluate (Guess.ofChars s).chars = Expr.evaluate s := by
  have hplain : (s.map plainSign).map plainSign = s.map plainSign :=
    map_plainSign_of_not_mem (not_mem_map_plainSign s)
  rw [Guess.chars_ofChars, Expr.evaluate, Expr.evaluate, hplain]

/-- **Guesses over safe integers.**  If a text that is not too long is read as a tree that stays
among the integers below `2 ^ 53` and divides by zero nowhere, then it is parsed, its value is the
exact one, and of all targets it is valid for exactly that integer. -/
theorem checkGuess_exact {s : List Char} {e : Expr ℕ} (hlen : s.length ≤ maxLength)
    (hread : Expr.readExact (s.map plainSign) = .ok e) (hsafe : e.StaysSafe) :
    Expr.parse (s.map plainSign) = .ok (e.map Float.ofNat) ∧ ∃ z : ℤ, e.exactValue = z ∧
      (∃ v, Expr.evaluate s = .ok v ∧ (Binary64.ofFloat v).rational? = some (z : ℚ)) ∧
      ∀ (target : Int64) (solution : Solution), (Guess.ofChars s).length = solution.length →
        ∃ r, checkGuess (Guess.ofChars s) target solution = .ok r ∧
          (r.valid = true ↔ target.toInt = z) := by
  have hparse := Expr.parse_of_readExact (by rwa [List.length_map]) hread
  obtain ⟨z, hz, hlt⟩ := hsafe.part e (.whole e)
  have hstands := hsafe.standsFor_value
  rw [hz] at hstands
  have hfinite := isFinite_iff.2 ⟨_, hstands.rational⟩
  have hvalue : Expr.evaluate s = .ok (e.map Float.ofNat).value := by
    rw [Expr.evaluate_of_parse hparse]
    exact Expr.finiteValue_eq_ok_iff.2 ⟨hfinite, rfl⟩
  refine ⟨hparse, z, hz, ⟨_, hvalue, hstands.rational⟩, fun target solution hlen => ?_⟩
  have hmeets : ((e.map Float.ofNat).value == targetFloat target) = true ↔ target.toInt = z := by
    rw [hstands.beq_iff (standsFor_targetFloat target), Int.cast_inj, eq_comm,
      nearestInt_eq_safe_iff hlt]
  have hguess : Expr.evaluate (Guess.ofChars s).chars = .ok (e.map Float.ofNat).value := by
    rw [Expr.evaluate_ofChars, hvalue]
  cases hbeq : (e.map Float.ofNat).value == targetFloat target with
  | true =>
    exact ⟨_, checkGuess_of_eq hlen hguess hbeq, iff_of_true rfl (hmeets.1 hbeq)⟩
  | false =>
    rw [hbeq] at hmeets
    exact ⟨_, checkGuess_of_ne hlen hguess hbeq, hmeets⟩

/-- A quotient without remainder less a product: the value is `-8`, and so is the one target that
is met. -/
theorem exact_difference_met :
    (∃ v, Expr.evaluate "8/2-3×4".toList = .ok v ∧
      (Binary64.ofFloat v).rational? = some (-8)) ∧
    ∀ (target : Int64) (solution : Solution), solution.length = 7 →
      ∃ r, checkGuess (.ofString "8/2-3×4") target solution = .ok r ∧
        (r.valid = true ↔ target.toInt = -8) := by
  have hread : Expr.readExact ("8/2-3×4".toList.map plainSign) = .ok
      (.binary .minus (.binary .divide (.number 8) (.number 2))
        (.binary .times (.number 3) (.number 4))) :=
    Expr.readExact_eq_ok_iff.2 ⟨by decide, ⟨⟨[], ['8']⟩,
      [(.divide, ⟨[], ['2']⟩), (.minus, ⟨[], ['3']⟩), (.times, ⟨[], ['4']⟩)]⟩, by decide, rfl⟩
  have hquotient : (Expr.binary .divide (.number 8) (.number 2)).exactValue = (4 : ℤ) := by
    change (8 : ℚ) / 2 = 4
    norm_num
  have hproduct : (Expr.binary .times (.number 3) (.number 4)).exactValue = (12 : ℤ) := by
    change (3 : ℚ) * 4 = 12
    norm_num
  have hdifference : (Expr.binary .minus (.binary .divide (.number 8) (.number 2))
      (.binary .times (.number 3) (.number 4))).exactValue = (-8 : ℤ) := by
    change (8 : ℚ) / 2 - 3 * 4 = -8
    norm_num
  have hdivisor : Expr.exactValue (.number 2) ≠ 0 := two_ne_zero (α := ℚ)
  have hsafe : (Expr.binary .minus (.binary .divide (.number 8) (.number 2))
      (.binary .times (.number 3) (.number 4))).StaysSafe := by
    simp only [Expr.staysSafe_binary_iff, Expr.staysSafe_number_iff]
    exact ⟨⟨by decide, by decide, ⟨4, hquotient, by decide⟩, fun _ => hdivisor⟩,
      ⟨by decide, by decide, ⟨12, hproduct, by decide⟩, by decide⟩,
      ⟨-8, hdifference, by decide⟩, by decide⟩
  obtain ⟨-, z, hz, hvalue, hvalid⟩ := checkGuess_exact (by decide) hread hsafe
  obtain rfl : (-8 : ℤ) = z := by
    rw [← Int.cast_inj (α := ℚ), ← hdifference, hz]
  refine ⟨?_, fun target solution hlen => hvalid target solution hlen.symm⟩
  simpa using hvalue

end HiddenEquation
