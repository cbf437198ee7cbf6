import HiddenEquation.Json.Number
import HiddenEquation.Proofs.Decimal.Integer
import HiddenEquation.Proofs.Json.Reading

/-!
# Reading a numeral as it is written

The whole part, the digits after the point and the exponent of a numeral, each read in front of
whatever follows it.  As long as the digits make a number below `2 ^ 64` none of them is dropped.

* `readUnsigned_append`, `readFraction_append`, `readTail_exponent` : the three parts.
* `readUnsigned_pointed`, `exists_withPoint` : a numeral with its point.
* `toList_writePositional`, `exists_writePositional` : a number without an exponent, as it is
  written.
* `Reader.reads_integer` : an integer of at most 64 bits.
-/

namespace HiddenEquation

namespace Json

open Decimal Text

variable {negative : Bool} {ds rest : List Char}

/-! ## Digits -/

/-- A text in front of which a run of digits ends. -/
def EndsDigits (rest : List Char) : Prop := ∀ c ∈ rest.head?, c.isDigit = false

theorem EndsNumeral.endsDigits (h : EndsNumeral rest) : EndsDigits rest := fun c hc => (h c hc).1

theorem endsDigits_cons {c : Char} (rest : List Char) (h : c.isDigit = false) :
    EndsDigits (c :: rest) := by
  intro d hd
  rw [List.head?_cons, Option.mem_some] at hd
  rw [← hd]
  exact h

theorem takeWhile_isDigit_of_ends (h : EndsDigits rest) : rest.takeWhile Char.isDigit = [] := by
  cases rest with
  | nil => rfl
  | cons c cs =>
    have hc := h c (by simp)
    rw [List.takeWhile_cons_of_neg (by simp [hc])]

theorem dropDigits_of_ends (h : EndsDigits rest) : dropDigits rest = rest := by
  cases rest with
  | nil => rfl
  | cons c cs =>
    have hc := h c (by simp)
    rw [dropDigits, List.dropWhile_cons_of_neg (by simp [hc])]

theorem takeWhile_isDigit_append (hds : ∀ c ∈ ds, c.isDigit = true) (h : EndsDigits rest) :
    (ds ++ rest).takeWhile Char.isDigit = ds := by
  rw [List.takeWhile_append_of_pos hds, takeWhile_isDigit_of_ends h, List.append_nil]

theorem dropDigits_append (hds : ∀ c ∈ ds, c.isDigit = true) (h : EndsDigits rest) :
    dropDigits (ds ++ rest) = rest := by
  rw [dropDigits, List.dropWhile_append_of_pos hds]
  exact dropDigits_of_ends h

/-- Digits are taken onto a number as long as they fit. -/
theorem takeDigits_append {n : Nat} (hds : ∀ c ∈ ds, c.isDigit = true)
    (hfit : n * 10 ^ ds.length + digitsValue ds < UInt64.size) (h : EndsDigits rest) :
    takeDigits n (ds ++ rest) = (n * 10 ^ ds.length + digitsValue ds, ds.length, rest) := by
  rw [← foldl_digitValue] at hfit ⊢
  induction ds generalizing n with
  | nil =>
    cases rest with
    | nil => rfl
    | cons c cs =>
      have hc := h c (by simp)
      rw [List.nil_append, takeDigits, if_neg (by simp [hc])]
      rfl
  | cons c ds ih =>
    rw [List.forall_mem_cons] at hds
    rw [List.foldl_cons] at hfit ⊢
    have hle := le_foldl_digitValue (10 * n + digitValue c) ds
    rw [List.cons_append, takeDigits, if_pos ⟨hds.1, by omega⟩, ih hds.2 hfit]
    rfl

/-! ## The parts of a numeral -/

/-- The whole part of a numeral. -/
theorem readUnsigned_append (hds : IsNumber ds) (hfit : digitsValue ds < UInt64.size)
    (h : EndsDigits rest) :
    readUnsigned negative (ds ++ rest) =
      readAfterWhole negative (digitsValue ds) none rest := by
  cases ds with
  | nil => exact absurd rfl hds.ne_nil
  | cons c cs =>
    have hdigits := hds.isDigit
    rw [List.forall_mem_cons] at hdigits
    rw [List.cons_append, readUnsigned]
    by_cases hc : c = '0'
    · subst hc
      have hcs : cs = [] := by
        have hzeros := hds.zeros
        simp only [List.length_cons, List.head?_cons, and_true, Nat.not_lt] at hzeros
        exact List.eq_nil_of_length_eq_zero (by omega)
      subst hcs
      rw [if_pos rfl, List.nil_append, takeWhile_isDigit_of_ends h]
      rfl
    · have htake := takeDigits_append (n := 0) hds.isDigit (by simpa using hfit) h
      rw [Nat.zero_mul, Nat.zero_add, List.cons_append] at htake
      rw [if_neg hc, if_pos hdigits.1, htake]
      dsimp only
      rw [takeWhile_isDigit_of_ends h, dropDigits_of_ends h]
      rfl

/-- A numeral without a point. -/
theorem readAfterWhole_cons {n : Nat} {scale : Option Int} {c : Char} (hc : c ≠ '.')
    (s : List Char) :
    readAfterWhole negative n scale (c :: s) = readTail negative n scale (c :: s) := by
  rw [readAfterWhole]
  intro cs h
  exact hc (List.cons.inj h).1

/-- A numeral without a sign. -/
theorem readNumeral_cons {c : Char} (hc : c ≠ '-') (s : List Char) :
    readNumeral (c :: s) = readUnsigned false (c :: s) := by
  rw [readNumeral]
  intro cs h
  exact hc (List.cons.inj h).1

/-- The digits after the point. -/
theorem readFraction_append {n : Nat} {scale : Int} (hne : ds ≠ [])
    (hds : ∀ c ∈ ds, c.isDigit = true)
    (hfit : n * 10 ^ ds.length + digitsValue ds < UInt64.size) (h : EndsDigits rest) :
    readFraction negative n scale (ds ++ rest) =
      readTail negative (n * 10 ^ ds.length + digitsValue ds) (some (scale - ds.length)) rest := by
  rw [readFraction, takeDigits_append hds hfit h, takeWhile_isDigit_append hds h]
  dsimp only
  rw [if_neg hne, dropDigits_of_ends h]

/-- Without an exponent the numeral ends here. -/
theorem readTail_of_ends {n : Nat} {scale : Option Int} (h : EndsNumeral rest) :
    readTail negative n scale rest = .ok (⟨negative, n, scale⟩, rest) := by
  cases rest with
  | nil => rfl
  | cons c cs =>
    obtain ⟨-, -, he, hE⟩ := h c (by simp)
    rw [readTail, if_neg (not_or.2 ⟨he, hE⟩)]

/-- An exponent with its sign. -/
theorem readTail_exponent {n : Nat} {scale : Option Int} (e : Int) (h : EndsDigits rest) :
    readTail negative n scale
        ('e' :: (if 0 ≤ e then '+' else '-') :: (Nat.toDigits 10 e.natAbs ++ rest)) =
      .ok (⟨negative, n, some (scale.getD 0 + e)⟩, rest) := by
  have hds := (isNumber_toDigits e.natAbs).isDigit
  have hdigits (s : Bool) : readExponentDigits s (Nat.toDigits 10 e.natAbs ++ rest) =
      .ok (if s then -(e.natAbs : Int) else e.natAbs, rest) := by
    rw [readExponentDigits, takeWhile_isDigit_append hds h, dropDigits_append hds h]
    dsimp only
    rw [if_neg Nat.toDigits_ne_nil, digitsValue_toDigits]
  rw [readTail, if_pos (Or.inl rfl)]
  by_cases he : 0 ≤ e
  · rw [if_pos he, readExponent, hdigits]
    dsimp only
    rw [if_neg Bool.false_ne_true, Int.natAbs_of_nonneg he]
  · rw [if_neg he, readExponent, hdigits]
    dsimp only
    rw [if_pos rfl, Int.ofNat_natAbs_of_nonpos (Int.le_of_lt (Int.not_le.1 he)), Int.neg_neg]

/-! ## A numeral with its point -/

/-- A whole part, a point and more digits. -/
theorem readUnsigned_pointed {whole frac : List Char} (hwhole : IsNumber whole)
    (hne : frac ≠ []) (hfrac : ∀ c ∈ frac, c.isDigit = true)
    (hfit : digitsValue (whole ++ frac) < UInt64.size) (h : EndsDigits rest) :
    readUnsigned negative (whole ++ '.' :: (frac ++ rest)) =
      readTail negative (digitsValue (whole ++ frac)) (some (-frac.length)) rest := by
  rw [digitsValue_append] at hfit ⊢
  have hle : digitsValue whole ≤ digitsValue whole * 10 ^ frac.length :=
    Nat.le_mul_of_pos_right _ (Nat.pow_pos (by decide))
  rw [readUnsigned_append hwhole (by omega) (endsDigits_cons _ (by decide)), readAfterWhole,
    readFraction_append hne hfrac hfit h, Option.getD_none, Int.zero_sub]

/-- A point set into digits leaves a whole part and the digits behind it, with zeros in front if
there are too few. -/
theorem exists_withPoint (hds : IsNumber ds) (hhead : ds.head? ≠ some '0') (places : Nat) :
    ∃ whole frac, (withPoint (String.ofList ds) places).toList = whole ++ '.' :: frac ∧
      IsNumber whole ∧ (∀ c ∈ frac, c.isDigit = true) ∧ frac.length = places ∧
      digitsValue (whole ++ frac) = digitsValue ds := by
  let padded := List.replicate (places + 1 - ds.length) '0' ++ ds
  have hlen : padded.length = places + 1 - ds.length + ds.length := by simp [padded]
  have hpadded : ∀ c ∈ padded, c.isDigit = true := by
    intro c hc
    rcases List.mem_append.1 hc with hc | hc
    · rw [List.eq_of_mem_replicate hc]
      rfl
    · exact hds.isDigit c hc
  refine ⟨padded.take (padded.length - places), padded.drop (padded.length - places), ?_, ?_, ?_,
    ?_, ?_⟩
  · rw [withPoint]
    simp only [String.toList_append, String.toList_ofList, List.append_assoc]
    rfl
  · refine ⟨?_, fun c hc => hpadded c (List.mem_of_mem_take hc), ?_⟩
    · rw [← List.length_pos_iff, List.length_take]
      omega
    · -- more than one digit in front of the point means that no zero was put there
      rintro ⟨hlong, hzero⟩
      rw [List.length_take] at hlong
      have hnone : places + 1 - ds.length = 0 := by omega
      have heq : padded = ds := by simp [padded, hnone]
      rw [List.head?_take, if_neg (by omega), heq] at hzero
      exact hhead hzero
  · exact fun c hc => hpadded c (List.mem_of_mem_drop hc)
  · rw [List.length_drop]
    omega
  · rw [List.take_append_drop, digitsValue_append, digitsValue_zeros, Nat.zero_mul, Nat.zero_add]

/-! ## Integers -/

/-- A whole part alone. -/
theorem readUnsigned_whole (hds : IsNumber ds) (hfit : digitsValue ds < UInt64.size)
    (h : EndsNumeral rest) :
    readUnsigned negative (ds ++ rest) = .ok (⟨negative, digitsValue ds, none⟩, rest) := by
  rw [readUnsigned_append hds hfit h.endsDigits]
  cases rest with
  | nil => rfl
  | cons c cs =>
    have hpoint : c ≠ '.' := (h c (by simp)).2.1
    rw [readAfterWhole_cons hpoint, readTail_of_ends h]

/-! ## Numbers without an exponent -/

theorem toList_zeros (n : Nat) : (zeros n).toList = List.replicate n '0' :=
  String.toList_ofList

/-- Digits and zeros. -/
theorem isNumber_zeros {c p : Nat} (h : 0 < c ∨ p = 0) :
    IsNumber (Nat.toDigits 10 c ++ List.replicate p '0') := by
  have hdigits := isNumber_toDigits c
  rcases h with hc | rfl
  · refine ⟨by simp [hdigits.ne_nil], ?_, ?_⟩
    · intro a ha
      rcases List.mem_append.1 ha with ha | ha
      · exact hdigits.isDigit a ha
      · rw [List.eq_of_mem_replicate ha]
        rfl
    · rw [List.head?_append_of_ne_nil _ hdigits.ne_nil]
      exact fun h => head?_toDigits hc h.2
  · rwa [List.replicate_zero, List.append_nil]

theorem digitsValue_toDigits_zeros (c p : Nat) :
    digitsValue (Nat.toDigits 10 c ++ List.replicate p '0') = c * 10 ^ p := by
  rw [digitsValue_append, digitsValue_toDigits, digitsValue_zeros, List.length_replicate,
    Nat.add_zero]

section

variable (st : Style) {s : Scaled}

/-- A number without a fraction. -/
theorem toList_writePositional (h : 0 ≤ s.exponent) : (st.writePositional s).toList =
    Nat.toDigits 10 s.coefficient ++ List.replicate s.exponent.toNat '0' ++
      st.wholeMark.toList := by
  rw [Style.writePositional, if_pos h, String.toList_append, String.toList_append,
    toList_toString, toList_zeros]

/-- A number with a fraction. -/
theorem exists_writePositional (hpos : 0 < s.coefficient) (h : s.exponent < 0) :
    ∃ whole frac, (st.writePositional s).toList = whole ++ '.' :: frac ∧ IsNumber whole ∧
      (∀ c ∈ frac, c.isDigit = true) ∧ (frac.length : Int) = -s.exponent ∧
      digitsValue (whole ++ frac) = s.coefficient := by
  obtain ⟨whole, frac, htext, hwhole, hfrac, hlen, hvalue⟩ :=
    exists_withPoint (isNumber_toDigits s.coefficient) (head?_toDigits hpos) (-s.exponent).toNat
  rw [digitsValue_toDigits] at hvalue
  refine ⟨whole, frac, ?_, hwhole, hfrac, by omega, hvalue⟩
  rw [Style.writePositional, if_neg (Int.not_le.2 h)]
  exact htext

end

/-! ## Integers as they are written -/

/-- The integers that a number holds as they are: those that fit into 64 bits, with a sign or
without. -/
def IsWord (z : Int) : Prop := -0x8000000000000000 ≤ z ∧ z < UInt64.size

/-- **An integer is read where it was written.** -/
theorem readNumber_numeral {z : Int} (hz : IsWord z) (h : EndsNumeral rest) :
    readNumber (numeral z ++ rest) = .ok (.integer z, rest) := by
  obtain ⟨hlo, hhi⟩ := hz
  cases z with
  | ofNat n =>
    have hds := isNumber_toDigits n
    have hfit : digitsValue (Nat.toDigits 10 n) < UInt64.size := by
      rw [digitsValue_toDigits]
      exact Int.ofNat_lt.1 hhi
    have hwhole : readUnsigned false (Nat.toDigits 10 n ++ rest) =
        .ok (⟨false, n, none⟩, rest) := by
      rw [readUnsigned_whole hds hfit h, digitsValue_toDigits]
    have hread : readNumeral (Nat.toDigits 10 n ++ rest) = .ok (⟨false, n, none⟩, rest) := by
      rw [← hwhole]
      -- the digits do not start with a sign
      cases hs : Nat.toDigits 10 n with
      | nil => exact absurd hs hds.ne_nil
      | cons c cs =>
        refine readNumeral_cons (fun hc => ?_) (cs ++ rest)
        rw [hs, hc] at hds
        exact hds.head?_ne_minus rfl
    rw [numeral, readNumber, hread]
    rfl
  | negSucc n =>
    have hfit : digitsValue (Nat.toDigits 10 (n + 1)) < UInt64.size := by
      rw [digitsValue_toDigits]
      simp only [UInt64.size]
      omega
    have hread : readNumeral ('-' :: (Nat.toDigits 10 (n + 1) ++ rest)) =
        .ok (⟨true, n + 1, none⟩, rest) := by
      rw [readNumeral, readUnsigned_whole (isNumber_toDigits (n + 1)) hfit h, digitsValue_toDigits]
    have hsign : 0 < n + 1 ∧ n + 1 ≤ 0x8000000000000000 := ⟨n.succ_pos, by omega⟩
    rw [numeral, List.cons_append, readNumber, hread]
    dsimp only
    rw [Numeral.number]
    dsimp only
    rw [if_pos rfl, if_pos hsign]
    rfl

namespace Reader

variable {v : Number}

/-- What is read as a number from a sign or a digit on is read by the reader of numbers. -/
theorem reads_number_of_cons {c : Char} {t : List Char} (hc : c = '-' ∨ c.isDigit = true)
    (h : ∀ rest, EndsNumeral rest → readNumber (c :: (t ++ rest)) = .ok (v, rest)) :
    number.Reads (c :: t) v := by
  have hstarts : isSpace c = false ∧ c ≠ ']' ∧ c ≠ 'n' := by
    rcases hc with rfl | hc
    · decide
    · have hne (a : Char) (ha : a.isDigit = false) : c ≠ a := by
        rintro rfl
        rw [ha] at hc
        cases hc
      simp only [isSpace, Bool.or_eq_false_iff, beq_eq_false_iff_ne]
      exact ⟨⟨⟨⟨hne _ rfl, hne _ rfl⟩, hne _ rfl⟩, hne _ rfl⟩, hne _ rfl, hne _ rfl⟩
  apply reads_of_runFirst rfl hstarts
  intro rest hrest
  rw [if_pos hc]
  exact h rest hrest

theorem reads_numeral {z : Int} (hz : IsWord z) : number.Reads (numeral z) (.integer z) := by
  have hstarts : ∃ c t, numeral z = c :: t ∧ (c = '-' ∨ c.isDigit = true) := by
    cases z with
    | ofNat n =>
      have hds := isNumber_toDigits n
      rw [numeral]
      cases hs : Nat.toDigits 10 n with
      | nil => exact absurd hs hds.ne_nil
      | cons c t => exact ⟨c, t, rfl, Or.inr (hds.isDigit c (by simp [hs]))⟩
    | negSucc n => exact ⟨_, _, rfl, Or.inl rfl⟩
  obtain ⟨c, t, hs, hc⟩ := hstarts
  rw [hs]
  apply reads_number_of_cons hc
  intro rest hrest
  rw [← List.cons_append, ← hs]
  exact readNumber_numeral hz hrest

/-- **An integer of a range** is read where it was written. -/
theorem reads_integer {range : IntegerRange} {z : Int} (hz : IsWord z)
    (hrange : range.lo ≤ z ∧ z ≤ range.hi) : (integer range).Reads (toString z).toList z := by
  rw [toList_toString_int]
  exact (reads_numeral hz).mapOption (if_pos hrange)

end Reader

end Json

end HiddenEquation
