import HiddenEquation.Json.Document
import HiddenEquation.Proofs.Json.Numeral
import HiddenEquation.Proofs.Json.Reread

/-!
# Doubles in JSON text

The text of a finite double is one numeral: digits with a point, or digits with an exponent.  It is
read as the whole number and the power of ten of `asRead`.

* `readUnsigned_writeMagnitude` : the numeral of a positive double or zero.
* `Reader.reads_double` : what is read where a finite double was written.
-/

namespace HiddenEquation.Json

open Decimal Text

variable {negative : Bool} {rest : List Char}

/-! ## The three forms of the text -/

/-- A whole number without exponent, with its zeros and one more after the point. -/
theorem readUnsigned_writePositional_whole {s : Scaled} (hexp : 0 ≤ s.exponent)
    (hs : 0 < s.coefficient ∨ s.exponent = 0)
    (hlt : s.coefficient * 10 ^ (s.exponent.toNat + 1) < 10 ^ 17) (h : EndsNumeral rest) :
    readUnsigned negative ((Style.json.writePositional s).toList ++ rest) =
      .ok (⟨negative, s.coefficient * 10 ^ (s.exponent.toNat + 1), some (-1)⟩, rest) := by
  obtain ⟨c, e⟩ := s
  obtain ⟨p, rfl⟩ := Int.eq_ofNat_of_zero_le hexp
  have htext : (Style.json.writePositional ⟨c, p⟩).toList ++ rest =
      (Nat.toDigits 10 c ++ List.replicate p '0') ++ '.' :: (['0'] ++ rest) := by
    rw [toList_writePositional _ hexp, List.append_assoc]
    rfl
  have hvalue : digitsValue ((Nat.toDigits 10 c ++ List.replicate p '0') ++ ['0']) =
      c * 10 ^ (p + 1) := by
    rw [List.append_assoc, ← List.replicate_succ', digitsValue_toDigits_zeros]
  have hfit : digitsValue ((Nat.toDigits 10 c ++ List.replicate p '0') ++ ['0']) < UInt64.size := by
    rw [hvalue]
    exact hlt.trans (by decide)
  rw [htext, readUnsigned_pointed (isNumber_zeros (by simpa using hs)) (List.cons_ne_nil _ _)
    (List.forall_mem_singleton.2 rfl) hfit h.endsDigits, hvalue, readTail_of_ends h]
  rfl

/-- Digits with a point in them or in front. -/
theorem readUnsigned_writePositional_places {s : Scaled} (hexp : s.exponent < 0)
    (hpos : 0 < s.coefficient) (hlt : s.coefficient < UInt64.size) (h : EndsNumeral rest) :
    readUnsigned negative ((Style.json.writePositional s).toList ++ rest) =
      .ok (⟨negative, s.coefficient, some s.exponent⟩, rest) := by
  obtain ⟨whole, frac, htext, hwhole, hfrac, hlen, hvalue⟩ :=
    exists_writePositional Style.json hpos hexp
  have hne : frac ≠ [] := by
    rw [← List.length_pos_iff]
    omega
  rw [htext, List.append_assoc, List.cons_append,
    readUnsigned_pointed hwhole hne hfrac (by rwa [hvalue]) h.endsDigits, hvalue,
    readTail_of_ends h, hlen, neg_neg]

/-- Digits with an exponent. -/
theorem readUnsigned_writeExponential {s : Scaled} (hpos : 0 < s.coefficient)
    (hlt : s.coefficient < UInt64.size) (h : EndsNumeral rest) :
    readUnsigned negative ((Style.writeExponential s (s.exponent +
        ((toString s.coefficient).length - 1 : Nat))).toList ++ rest) =
      .ok (⟨negative, s.coefficient, some s.exponent⟩, rest) := by
  have hds := isNumber_toDigits s.coefficient
  have htail (mantissa : String) (e : ℤ) :
      (mantissa ++ "e" ++ (if 0 ≤ e then "+" else "-") ++ toString e.natAbs).toList ++ rest =
        mantissa.toList ++
          'e' :: (if 0 ≤ e then '+' else '-') :: (Nat.toDigits 10 e.natAbs ++ rest) := by
    rw [String.toList_append, String.toList_append, String.toList_append, toList_toString]
    simp only [List.append_assoc]
    split <;> rfl
  have hends (s : List Char) : EndsDigits ('e' :: s) := endsDigits_cons s (by decide)
  rw [Style.writeExponential, htail]
  split
  · rename_i hone
    have hone' : (toString s.coefficient).length - 1 = 0 := by omega
    rw [toList_toString, readUnsigned_append hds (by rwa [digitsValue_toDigits]) (hends _),
      digitsValue_toDigits]
    rw [readAfterWhole_cons (by decide), readTail_exponent _ h.endsDigits, hone', Option.getD_none,
      zero_add, Nat.cast_zero, add_zero]
  · rename_i hmany
    obtain ⟨whole, frac, htext, hwhole, hfrac, hlen, hvalue⟩ :=
      exists_withPoint hds (head?_toDigits hpos) ((toString s.coefficient).length - 1)
    have hne : frac ≠ [] := by
      rw [← List.length_pos_iff]
      omega
    rw [digitsValue_toDigits] at hvalue
    change readUnsigned negative ((withPoint (String.ofList _) _).toList ++ _) = _
    rw [htext, List.append_assoc, List.cons_append,
      readUnsigned_pointed hwhole hne hfrac (by rwa [hvalue]) (hends _), hvalue,
      readTail_exponent _ h.endsDigits, hlen, Option.getD_some, add_comm s.exponent,
      neg_add_cancel_left]

/-! ## The text of a positive double or zero -/

/-- **The text of a positive double or zero** is read as the whole number and the power of ten of
`asRead`. -/
theorem readUnsigned_writeMagnitude {d : Decimal.Dyadic} (hd : d = ⟨0, -1074⟩ ∨ d.Held)
    (h : EndsNumeral rest) :
    readUnsigned negative ((Style.json.writeMagnitude d).toList ++ rest) =
      .ok (⟨negative, (asRead d).coefficient, some (asRead d).exponent⟩, rest) := by
  -- only zero has no digits but a zero, and it is written without an exponent
  have hs : shortest Style.json.tie d = ⟨0, 0⟩ ∨
      0 < (shortest Style.json.tie d).coefficient ∧
        (shortest Style.json.tie d).coefficient < UInt64.size := by
    rcases hd with rfl | hd
    · exact Or.inl rfl
    · have hshort := isShort_shortest Style.json.tie hd
      exact Or.inr ⟨hshort.pos, hshort.lt.trans (by decide)⟩
  unfold Style.writeMagnitude asRead
  dsimp only
  generalize shortest Style.json.tie d = s at hs
  by_cases hpositional :
      Style.json.positional (s.exponent + ((toString s.coefficient).length - 1 : ℕ)) = true
  · rw [if_pos hpositional]
    by_cases hexp : 0 ≤ s.exponent
    · rw [if_pos ⟨hpositional, hexp⟩]
      apply readUnsigned_writePositional_whole hexp ?_
        (coefficient_lt_of_positional hpositional hexp) h
      rcases hs with rfl | hs
      · exact Or.inr rfl
      · exact Or.inl hs.1
    · rw [if_neg (fun hwhole => hexp hwhole.2)]
      rcases hs with rfl | hs
      · exact absurd le_rfl hexp
      · exact readUnsigned_writePositional_places (not_le.1 hexp) hs.1 hs.2 h
  · rw [if_neg hpositional, if_neg (fun hwhole => hpositional hwhole.1)]
    rcases hs with rfl | hs
    · exact absurd (by decide) hpositional
    · exact readUnsigned_writeExponential hs.1 hs.2 h

/-! ## The text of a double -/

/-- What is read as a numeral starts with a digit. -/
theorem exists_digit_of_readUnsigned {s : List Char} {r : Numeral × List Char}
    (h : readUnsigned negative s = .ok r) : ∃ c t, s = c :: t ∧ c.isDigit = true := by
  cases s with
  | nil => cases h
  | cons c t =>
    refine ⟨c, t, rfl, ?_⟩
    rw [readUnsigned] at h
    split at h
    · rename_i hc
      rw [hc]
      rfl
    · split at h
      · assumption
      · cases h

/-- A numeral with a scale is a double. -/
theorem readNumber_of_readNumeral {s : List Char} {m : ℕ} {scale : ℤ} {f : Float}
    (h : readNumeral s = .ok (⟨negative, m, some scale⟩, rest)) (hf : scaled m scale = .ok f) :
    readNumber s = .ok (.double (if negative then -f else f), rest) := by
  rw [readNumber, h]
  dsimp only
  rw [Numeral.number]
  dsimp only
  rw [hf]

namespace Reader

/-- A sign and what is read as a numeral. -/
theorem reads_number {t : List Char} {m : ℕ} {scale : ℤ} {f : Float} (negative : Bool)
    (ht : ∀ rest, EndsNumeral rest →
      readUnsigned negative (t ++ rest) = .ok (⟨negative, m, some scale⟩, rest))
    (hf : scaled m scale = .ok f) :
    number.Reads ((if negative then ['-'] else []) ++ t)
      (.double (if negative then -f else f)) := by
  cases negative with
  | true =>
    apply reads_number_of_cons (Or.inl rfl)
    intro rest hrest
    exact readNumber_of_readNumeral (ht rest hrest) hf
  | false =>
    have hnil := ht [] endsNumeral_nil
    rw [List.append_nil] at hnil
    obtain ⟨c, t, rfl, hc⟩ := exists_digit_of_readUnsigned hnil
    have hminus : c ≠ '-' := by
      rintro rfl
      cases hc
    apply reads_number_of_cons (Or.inr hc)
    intro rest hrest
    refine readNumber_of_readNumeral ?_ hf
    rw [readNumeral_cons hminus]
    exact ht rest hrest

/-- **What is read where a finite double was written.** -/
theorem reads_double {x : Float} (hx : x.isFinite = true) :
    double.Reads (Document.doubleText x).toList (reread x) := by
  obtain ⟨negative, d, hd⟩ := exists_ofFloat_of_isFinite hx
  have hzero := eq_zero_or_held_of_ofFloat hd
  have hnumber := reads_number negative (fun rest => readUnsigned_writeMagnitude hzero)
    (scaled_asRead hzero)
  have htext : (Document.doubleText x).toList =
      (if negative then ['-'] else []) ++ (Style.json.writeMagnitude d).toList := by
    rw [Document.doubleText, if_pos hx, Style.write, hd]
    dsimp only
    rw [String.toList_append]
    cases negative <;> rfl
  rw [htext, reread_of_ofFloat hd]
  exact hnumber.map _

end Reader

end HiddenEquation.Json
