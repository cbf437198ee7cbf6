import HiddenEquation.Proofs.Expr.Evaluation
import Mathlib.Algebra.Group.Nat.Defs

/-!
# Numerals

The shortest equations: a number, with or without a minus in front.  Every integer is
written as one, and the value of the equation is the double next to the integer.

* `evaluate_digits` : the value of a run of digits.
* `evaluate_numeral` : the value of an integer as it is written.
-/

namespace HiddenEquation

namespace Text

/-- Digits that an equation may hold as one number. -/
structure IsNumber (ds : List Char) : Prop where
  ne_nil : ds ≠ []
  isDigit : ∀ c ∈ ds, c.isDigit = true
  zeros : ¬(1 < ds.length ∧ ds.head? = some '0')

namespace IsNumber

variable {ds : List Char}

theorem legal (h : IsNumber ds) : Legal ds := by
  rw [← List.append_nil ds, legal_digits_append_iff h.ne_nil h.isDigit (by simp)]
  exact ⟨h.zeros, legal_nil⟩

theorem lexemes_eq (h : IsNumber ds) : lexemes ds = [.number ds] := by
  have happ := lexemes_digits_append (s := []) h.ne_nil h.isDigit (by simp)
  rwa [List.append_nil, lexemes_nil] at happ

theorem head?_ne_minus (h : IsNumber ds) : ds.head? ≠ some '-' := by
  intro hhead
  have hdigit := h.isDigit '-' (List.mem_of_head? hhead)
  exact absurd hdigit (by decide)

theorem legal_minus (h : IsNumber ds) : Legal ('-' :: ds) :=
  (legal_operator_iff .minus ds).2 ⟨fun hsign => h.head?_ne_minus hsign.2, h.legal⟩

theorem lexemes_minus (h : IsNumber ds) :
    lexemes ('-' :: ds) = [.operator .minus, .number ds] := by
  rw [← h.lexemes_eq]
  exact lexemes_operator .minus ds

theorem glyph_not_mem (h : IsNumber ds) : multiplicationGlyph ∉ ds := by
  intro hmem
  have hdigit := h.isDigit _ hmem
  exact absurd hdigit (by decide)

end IsNumber

end Text

/-! ## The value of a number -/

namespace Expr

open Text

variable {ds : List Char}

theorem readExact_digits (h : IsNumber ds) :
    readExact ds = .ok (.number (Decimal.digitsValue ds)) :=
  readExact_eq_ok_iff.2 ⟨h.legal, ⟨⟨[], ds⟩, []⟩, h.lexemes_eq, rfl⟩

theorem readExact_minus_digits (h : IsNumber ds) :
    readExact ('-' :: ds) = .ok (.neg (.number (Decimal.digitsValue ds))) :=
  readExact_eq_ok_iff.2 ⟨h.legal_minus, ⟨⟨[.minus], ds⟩, []⟩, h.lexemes_minus, rfl⟩

theorem evaluate_of_readExact {s : List Char} {e : Expr Nat} (hlen : s.length ≤ maxLength)
    (hplain : multiplicationGlyph ∉ s) (hread : readExact s = .ok e)
    (hfinite : (e.map Float.ofNat).value.isFinite = true) :
    evaluate s = .ok (e.map Float.ofNat).value := by
  rw [evaluate_eq_ok_iff_parse, map_plainSign_of_not_mem hplain]
  exact ⟨_, parse_of_readExact hlen hread, finiteValue_eq_ok_iff.2 ⟨hfinite, rfl⟩⟩

theorem evaluate_digits (h : IsNumber ds) (hlen : ds.length ≤ maxLength)
    (hfinite : (Float.ofNat (Decimal.digitsValue ds)).isFinite = true) :
    evaluate ds = .ok (Float.ofNat (Decimal.digitsValue ds)) :=
  evaluate_of_readExact hlen h.glyph_not_mem (readExact_digits h) hfinite

theorem evaluate_minus_digits (h : IsNumber ds) (hlen : ('-' :: ds).length ≤ maxLength)
    (hfinite : (Float.ofNat (Decimal.digitsValue ds)).neg.isFinite = true) :
    evaluate ('-' :: ds) = .ok (Float.ofNat (Decimal.digitsValue ds)).neg := by
  refine evaluate_of_readExact hlen ?_ (readExact_minus_digits h) hfinite
  rw [List.mem_cons, not_or]
  exact ⟨by decide, h.glyph_not_mem⟩

end Expr

/-! ## Integers as they are written -/

namespace Decimal

theorem digitsValue_toDigits (n : Nat) : digitsValue (Nat.toDigits 10 n) = n :=
  Nat.ofDigitChars_ten_toDigits

/-- Only zero is written with a zero in front. -/
theorem head?_toDigits {n : Nat} (hn : 0 < n) : (Nat.toDigits 10 n).head? ≠ some '0' := by
  induction n using Nat.strongRecOn with
  | ind n ih =>
    by_cases hlt : n < 10
    · rw [Nat.toDigits_of_lt_base hlt]
      have hdigit : ∀ k < 10, 0 < k → [Nat.digitChar k].head? ≠ some '0' := by decide
      exact hdigit n hlt hn
    · rw [Nat.toDigits_of_base_le (by decide) (Nat.le_of_not_lt hlt),
        List.head?_append_of_ne_nil _ Nat.toDigits_ne_nil]
      exact ih (n / 10) (by omega) (by omega)

theorem isNumber_toDigits (n : Nat) : Text.IsNumber (Nat.toDigits 10 n) := by
  refine ⟨Nat.toDigits_ne_nil, fun c hc => Nat.isDigit_of_mem_toDigits (by decide) (by decide) hc,
    ?_⟩
  rintro ⟨hlen, hhead⟩
  by_cases hn : n = 0
  · rw [hn, Nat.toDigits_zero] at hlen
    exact absurd hlen (by decide)
  · exact head?_toDigits (Nat.pos_of_ne_zero hn) hhead

/-- An integer as it is written in an equation. -/
def numeral : Int → List Char
  | .ofNat n => Nat.toDigits 10 n
  | .negSucc n => '-' :: Nat.toDigits 10 (n + 1)

theorem numeral_ne_nil (z : Int) : numeral z ≠ [] := by
  cases z with
  | ofNat n => exact Nat.toDigits_ne_nil
  | negSucc n => exact List.cons_ne_nil _ _

theorem glyph_not_mem_numeral (z : Int) : multiplicationGlyph ∉ numeral z := by
  cases z with
  | ofNat n => exact (isNumber_toDigits n).glyph_not_mem
  | negSucc n =>
    rw [numeral, List.mem_cons, not_or]
    exact ⟨by decide, (isNumber_toDigits (n + 1)).glyph_not_mem⟩

theorem length_numeral_le {z : Int} {k : Nat} (hk : 0 < k) (hz : z.natAbs < 10 ^ k) :
    (numeral z).length ≤ k + 1 := by
  cases z with
  | ofNat n =>
    have hlen := (Nat.length_toDigits_le_iff (by decide) hk).2 hz
    exact Nat.le_succ_of_le hlen
  | negSucc n =>
    have hlen := (Nat.length_toDigits_le_iff (by decide) hk).2 hz
    exact Nat.succ_le_succ hlen

/-- **The value of an integer as it is written** is the double next to it, unless the integer
is too long for an equation or too great for a double. -/
theorem evaluate_numeral {z : Int} (hlen : (numeral z).length ≤ maxLength)
    (hfinite : (Float.ofInt z).isFinite = true) :
    Expr.evaluate (numeral z) = .ok (Float.ofInt z) := by
  cases z with
  | ofNat n =>
    have h := Expr.evaluate_digits (isNumber_toDigits n) hlen
    rw [digitsValue_toDigits] at h
    exact h hfinite
  | negSucc n =>
    have h := Expr.evaluate_minus_digits (isNumber_toDigits (n + 1)) hlen
    rw [digitsValue_toDigits] at h
    exact h hfinite

end Decimal

end HiddenEquation
