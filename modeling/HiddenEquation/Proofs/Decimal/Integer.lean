import HiddenEquation.Proofs.Expr.Numeral
import Mathlib.Data.List.Induction

/-!
# Which texts are integers

An integer is read digit by digit and every partial number is held against the range.  A further
digit never brings a number back towards zero, so a partial number is out of the range only if the
whole number is, and what is read in the end is what `Decimal.Writes` says of the text as a whole.

* `foldl_digitValue`, `digitsValue_append` : the value of digits in front of further digits.
* `readDigits_eq_ok_iff` : digits that are read onto a number.
* `readInteger_eq_ok_iff` : the texts that are read as an integer of a range.
* `admits_numeral` : an integer as it is written is such a text.
-/

namespace HiddenEquation.Decimal

/-! ## Values of digits -/

theorem foldl_digitValue (n : Nat) (ds : List Char) :
    ds.foldl (fun n c => 10 * n + digitValue c) n = n * 10 ^ ds.length + digitsValue ds := by
  induction ds using List.reverseRecOn with
  | nil => simp [digitsValue]
  | append_singleton ds c ih =>
    rw [List.foldl_append, ih, digitsValue_append_singleton, List.length_append,
      List.length_singleton, Nat.pow_succ]
    simp only [List.foldl_cons, List.foldl_nil]
    rw [Nat.mul_add, Nat.add_assoc, Nat.mul_comm 10 (n * _), Nat.mul_assoc]

theorem digitsValue_append (s t : List Char) :
    digitsValue (s ++ t) = digitsValue s * 10 ^ t.length + digitsValue t := by
  rw [digitsValue, List.foldl_append, foldl_digitValue]
  rfl

theorem digitsValue_zeros (n : Nat) : digitsValue (List.replicate n '0') = 0 := by
  induction n with
  | zero => rfl
  | succ n ih =>
    rw [List.replicate_succ', digitsValue_append_singleton, ih]
    rfl

/-- No digit in front of a number makes it smaller. -/
theorem le_foldl_digitValue (n : Nat) (ds : List Char) :
    n ≤ ds.foldl (fun n c => 10 * n + digitValue c) n := by
  rw [foldl_digitValue]
  exact Nat.le_add_right_of_le (Nat.le_mul_of_pos_right n (Nat.pow_pos (by decide)))

/-! ## Texts that write an integer -/

/-- At least one digit; zeros may stand in front. -/
structure IsDigits (ds : List Char) : Prop where
  ne_nil : ds ≠ []
  isDigit : ∀ c ∈ ds, c.isDigit = true

/-- A text that writes an integer: digits, with a plus in front of them or without, and where signs
are allowed also with a minus. -/
inductive Writes (signed : Bool) : List Char → Int → Prop where
  | digits {ds : List Char} (h : IsDigits ds) : Writes signed ds (digitsValue ds)
  | plus {ds : List Char} (h : IsDigits ds) : Writes signed ('+' :: ds) (digitsValue ds)
  | minus {ds : List Char} (hsigned : signed = true) (h : IsDigits ds) :
      Writes signed ('-' :: ds) (-digitsValue ds)

theorem Writes.isDigit_or_sign {signed : Bool} {s : List Char} {z : Int} (h : Writes signed s z)
    {c : Char} (hc : c ∈ s) : c.isDigit = true ∨ c = '+' ∨ c = '-' := by
  cases h with
  | digits h => exact .inl (h.isDigit c hc)
  | plus h =>
    rcases List.mem_cons.1 hc with rfl | hc
    · exact .inr (.inl rfl)
    · exact .inl (h.isDigit c hc)
  | minus _ h =>
    rcases List.mem_cons.1 hc with rfl | hc
    · exact .inr (.inr rfl)
    · exact .inl (h.isDigit c hc)

namespace IntegerRange

/-- The integers of a range. -/
def Holds (range : IntegerRange) (z : Int) : Prop := range.lo ≤ z ∧ z ≤ range.hi

instance (range : IntegerRange) (z : Int) : Decidable (range.Holds z) :=
  inferInstanceAs (Decidable (_ ∧ _))

/-- A text that writes an integer of a range. -/
def Admits (range : IntegerRange) (s : List Char) (z : Int) : Prop :=
  Writes range.signed s z ∧ range.Holds z

end IntegerRange

variable {range : IntegerRange} {negative : Bool} {s ds : List Char} {m : Nat} {z : Int}

/-! ## Reading digits -/

/-- The number at a distance from zero, on the negative side or on the other. -/
def directed (negative : Bool) (m : Nat) : Int := if negative then -m else m

/-- A range with a number has all numbers between it and zero. -/
theorem holds_of_le {k : Nat} (hzero : range.Holds 0) (hle : m ≤ k)
    (h : range.Holds (directed negative k)) : range.Holds (directed negative m) := by
  obtain ⟨hlo, hhi⟩ := hzero
  obtain ⟨hlo', hhi'⟩ := h
  cases negative with
  | true =>
    simp only [directed, if_true] at hlo' hhi' ⊢
    exact ⟨by omega, by omega⟩
  | false =>
    simp only [directed, Bool.false_eq_true, if_false] at hlo' hhi' ⊢
    exact ⟨by omega, by omega⟩

/-- A digit is read if the range has the number that it makes. -/
theorem readDigits_cons {c : Char} (hzero : range.Holds 0) (hc : c.isDigit = true) :
    readDigits range negative (directed negative m) (c :: s) =
      if range.Holds (directed negative (10 * m + digitValue c)) then
        readDigits range negative (directed negative (10 * m + digitValue c)) s
      else .error (if negative then .tooSmall else .tooLarge) := by
  obtain ⟨hlo, hhi⟩ := hzero
  rw [readDigits, if_pos hc]
  cases negative with
  | true =>
    have hnext : 10 * directed true m - (digitValue c : Int) =
        directed true (10 * m + digitValue c) := by
      simp only [directed, if_true]
      omega
    have hle : directed true (10 * m + digitValue c) ≤ range.hi := by
      simp only [directed, if_true]
      omega
    simp only [if_true, hnext]
    by_cases h : directed true (10 * m + digitValue c) < range.lo
    · rw [if_pos h, if_neg fun hholds => Int.not_le.2 h hholds.1]
    · rw [if_neg h, if_pos ⟨Int.not_lt.1 h, hle⟩]
  | false =>
    have hnext : 10 * directed false m + (digitValue c : Int) =
        directed false (10 * m + digitValue c) := by
      simp only [directed, Bool.false_eq_true, if_false]
      omega
    have hle : range.lo ≤ directed false (10 * m + digitValue c) := by
      simp only [directed, Bool.false_eq_true, if_false]
      omega
    simp only [Bool.false_eq_true, if_false, hnext]
    by_cases h : range.hi < directed false (10 * m + digitValue c)
    · rw [if_pos h, if_neg fun hholds => Int.not_le.2 h hholds.2]
    · rw [if_neg h, if_pos ⟨hle, Int.not_lt.1 h⟩]

/-- **Digits that are read onto a number.**  The range is asked about each partial number, but only
the last one matters. -/
theorem readDigits_eq_ok_iff (hzero : range.Holds 0) (hm : range.Holds (directed negative m)) :
    readDigits range negative (directed negative m) s = .ok z ↔
      (∀ c ∈ s, c.isDigit = true) ∧
      directed negative (s.foldl (fun n c => 10 * n + digitValue c) m) = z ∧ range.Holds z := by
  induction s generalizing m with
  | nil =>
    rw [readDigits, Except.ok.injEq, List.foldl_nil]
    constructor
    · rintro rfl
      exact ⟨fun c hc => absurd hc List.not_mem_nil, rfl, hm⟩
    · rintro ⟨-, hz, -⟩
      exact hz
  | cons c s ih =>
    by_cases hc : c.isDigit = true
    · rw [readDigits_cons hzero hc, List.foldl_cons, List.forall_mem_cons]
      by_cases hnext : range.Holds (directed negative (10 * m + digitValue c))
      · rw [if_pos hnext, ih hnext]
        simp only [hc, true_and]
      · rw [if_neg hnext]
        refine iff_of_false (fun h => by cases h) ?_
        rintro ⟨-, rfl, hz⟩
        exact hnext (holds_of_le hzero (le_foldl_digitValue _ s) hz)
    · rw [readDigits, if_neg hc]
      exact iff_of_false (fun h => by cases h) fun h => hc (h.1 c List.mem_cons_self)

theorem readDigits_zero_eq_ok_iff (hzero : range.Holds 0) (hne : s ≠ []) :
    readDigits range negative 0 s = .ok z ↔
      IsDigits s ∧ directed negative (digitsValue s) = z ∧ range.Holds z := by
  have hstart : directed negative 0 = 0 := by cases negative <;> rfl
  have hholds : range.Holds (directed negative 0) := by rwa [hstart]
  have h := readDigits_eq_ok_iff (s := s) (z := z) hzero hholds
  rw [hstart] at h
  rw [h]
  exact and_congr_left fun _ => ⟨fun hdigits => ⟨hne, hdigits⟩, fun hdigits => hdigits.isDigit⟩

/-! ## Reading an integer -/

theorem IsDigits.ne_sign (h : IsDigits ds) {c : Char} (hc : c.isDigit = false) (rest : List Char) :
    ds ≠ c :: rest := by
  rintro rfl
  rw [h.isDigit c List.mem_cons_self] at hc
  cases hc

theorem readInteger_digits (h : IsDigits ds) :
    readInteger range ds = readDigits range false 0 ds := by
  unfold readInteger
  split
  · exact absurd rfl h.ne_nil
  · exact absurd rfl (h.ne_sign rfl [])
  · exact absurd rfl (h.ne_sign rfl [])
  · exact absurd rfl (h.ne_sign rfl _)
  · exact absurd rfl (h.ne_sign rfl _)
  · rfl

theorem readInteger_plus (h : ds ≠ []) :
    readInteger range ('+' :: ds) = readDigits range false 0 ds := by
  cases ds with
  | nil => exact absurd rfl h
  | cons c ds => rfl

theorem readInteger_minus (h : ds ≠ []) (hsigned : range.signed = true) :
    readInteger range ('-' :: ds) = readDigits range true 0 ds := by
  cases ds with
  | nil => exact absurd rfl h
  | cons c ds => exact if_pos hsigned

/-- **The texts that are read as an integer of a range** are those that write one. -/
theorem readInteger_eq_ok_iff (hzero : range.Holds 0) :
    readInteger range s = .ok z ↔ range.Admits s z := by
  constructor
  · intro h
    unfold readInteger at h
    split at h
    · cases h
    · cases h
    · cases h
    · rename_i ds hne
      obtain ⟨hds, rfl, hz⟩ := (readDigits_zero_eq_ok_iff hzero (by simpa using hne)).1 h
      exact ⟨.plus hds, hz⟩
    · rename_i ds hne
      split at h
      · rename_i hsigned
        obtain ⟨hds, rfl, hz⟩ := (readDigits_zero_eq_ok_iff hzero (by simpa using hne)).1 h
        exact ⟨.minus hsigned hds, hz⟩
      · cases h
    · rename_i hnil _ _ _ _
      obtain ⟨hds, rfl, hz⟩ := (readDigits_zero_eq_ok_iff hzero (by simpa using hnil)).1 h
      exact ⟨.digits hds, hz⟩
  · rintro ⟨hwrites, hz⟩
    cases hwrites with
    | digits hds =>
      rw [readInteger_digits hds]
      exact (readDigits_zero_eq_ok_iff hzero hds.ne_nil).2 ⟨hds, rfl, hz⟩
    | plus hds =>
      rw [readInteger_plus hds.ne_nil]
      exact (readDigits_zero_eq_ok_iff hzero hds.ne_nil).2 ⟨hds, rfl, hz⟩
    | minus hsigned hds =>
      rw [readInteger_minus hds.ne_nil hsigned]
      exact (readDigits_zero_eq_ok_iff hzero hds.ne_nil).2 ⟨hds, rfl, hz⟩

/-- What is not read as an integer writes none of the range. -/
theorem exists_readInteger_eq_error_iff (hzero : range.Holds 0) :
    (∃ f, readInteger range s = .error f) ↔ ¬∃ z, range.Admits s z := by
  simp only [← readInteger_eq_ok_iff hzero]
  cases readInteger range s with
  | ok z => simp
  | error f => simp

/-! ## Integers as they are written -/

theorem toList_toString (n : Nat) : (toString n).toList = Nat.toDigits 10 n :=
  String.toList_ofList

theorem toList_toString_int (z : Int) : (toString z).toList = numeral z := by
  cases z with
  | ofNat n => exact toList_toString n
  | negSucc n =>
    show ("-" ++ toString (n + 1)).toList = _
    rw [String.toList_append, toList_toString]
    rfl

theorem isDigits_toDigits (n : Nat) : IsDigits (Nat.toDigits 10 n) :=
  ⟨Nat.toDigits_ne_nil, (isNumber_toDigits n).isDigit⟩

theorem writes_numeral (hsigned : range.signed = true ∨ 0 ≤ z) :
    Writes range.signed (numeral z) z := by
  cases z with
  | ofNat n =>
    have h : Writes range.signed (Nat.toDigits 10 n) _ := .digits (isDigits_toDigits n)
    rwa [digitsValue_toDigits] at h
  | negSucc n =>
    have hsign : range.signed = true :=
      hsigned.resolve_right (Int.not_le.2 (Int.negSucc_lt_zero n))
    have h := Writes.minus hsign (isDigits_toDigits (n + 1))
    rwa [digitsValue_toDigits] at h

/-- An integer of a range, as it is written, is a text that writes it. -/
theorem admits_numeral (hsigned : range.signed = true ∨ 0 ≤ z) (hz : range.Holds z) :
    range.Admits (numeral z) z :=
  ⟨writes_numeral hsigned, hz⟩

end HiddenEquation.Decimal
