import HiddenEquation.Proofs.Expr.Evaluation
import HiddenEquation.Proofs.Expr.Fault

/-!
# The stages of evaluation

A text is checked for its characters, then for its length, then parsed, and its value is checked
last; the first stage that objects has the word.  The check of the characters and the scanner know
their alphabet independently of each other, the one as a predicate and the other by what it can
read, and it is the same: a character that stops the scanner is the first one that the check would
have objected to.

* `Expr.IsFirstForeign` : the first character of a text that no equation contains.
* `Expr.isFirstForeign_of_parse` : the character that stops the scanner is that one.
* `Expr.evaluate_in_stages` : what a text evaluates to, stage by stage.
-/

namespace HiddenEquation

namespace Expr

open Text

/-! ## Characters that no equation contains -/

/-- The character stands at the position, no equation contains it, and all before it are allowed. -/
structure IsFirstForeign (s : List Char) (c : Char) (i : Nat) : Prop where
  found : s[i]? = some c
  foreign : isAllowed c = false
  before : ∀ d ∈ s.take i, isAllowed d = true

variable {s u : List Char} {c : Char} {i : Nat}

theorem isAllowed_eq_false_iff (c : Char) : isAllowed c = false ↔
    isBlank c = false ∧ c.isDigit = false ∧ Operator.ofChar? c = none := by
  rw [isAllowed, Bool.or_eq_false_iff, Bool.or_eq_false_iff, Option.isSome_eq_false_iff,
    Option.isNone_iff_eq_none]
  constructor
  · rintro ⟨⟨hd, ho⟩, hb⟩
    exact ⟨hb, hd, ho⟩
  · rintro ⟨hb, hd, ho⟩
    exact ⟨⟨hd, ho⟩, hb⟩

/-- Allowed characters in front only move the first one that is not. -/
theorem IsFirstForeign.append (hu : ∀ d ∈ u, isAllowed d = true) (h : IsFirstForeign s c i) :
    IsFirstForeign (u ++ s) c (u.length + i) := by
  refine ⟨?_, h.foreign, fun d hd => ?_⟩
  · rw [List.getElem?_append_right (Nat.le_add_right _ _), Nat.add_sub_cancel_left]
    exact h.found
  · rw [List.take_length_add_append] at hd
    rcases List.mem_append.1 hd with hd | hd
    · exact hu d hd
    · exact h.before d hd

theorem IsFirstForeign.cons {d : Char} (hd : isAllowed d = true) (h : IsFirstForeign s c i) :
    IsFirstForeign (d :: s) c (i + 1) := by
  have happend := h.append (List.forall_mem_singleton.2 hd)
  rwa [List.singleton_append, List.length_singleton, Nat.add_comm] at happend

/-- The search finds the first one. -/
theorem firstDisallowed_eq_some_iff : firstDisallowed s = some (c, i) ↔ IsFirstForeign s c i := by
  rw [firstDisallowed, List.find?_eq_some_iff_getElem]
  simp only [List.getElem_zipIdx, List.length_zipIdx, Nat.zero_add, Bool.not_eq_true',
    Bool.not_eq_false', Prod.mk.injEq]
  constructor
  · rintro ⟨hforeign, j, hj, ⟨rfl, rfl⟩, hbefore⟩
    refine ⟨List.getElem?_eq_getElem hj, hforeign, fun d hd => ?_⟩
    obtain ⟨k, hk, rfl⟩ := List.mem_take_iff_getElem.1 hd
    exact hbefore k (by omega)
  · rintro ⟨hfound, hforeign, hbefore⟩
    obtain ⟨hi, rfl⟩ := List.getElem?_eq_some_iff.1 hfound
    exact ⟨hforeign, i, hi, ⟨rfl, rfl⟩, fun k hk =>
      hbefore _ (List.mem_take_iff_getElem.2 ⟨k, by omega, rfl⟩)⟩

theorem forall_isAllowed_or_exists (s : List Char) :
    (∀ c ∈ s, isAllowed c = true) ∨ ∃ c i, IsFirstForeign s c i := by
  cases h : firstDisallowed s with
  | none => exact Or.inl ((firstDisallowed_eq_none_iff s).1 h)
  | some p => exact Or.inr ⟨p.1, p.2, firstDisallowed_eq_some_iff.1 h⟩

theorem IsFirstForeign.not_forall (h : IsFirstForeign s c i) :
    ¬∀ d ∈ s, isAllowed d = true := by
  intro hall
  have hallowed := hall c (List.mem_of_getElem? h.found)
  rw [h.foreign] at hallowed
  cases hallowed

/-! ## What stops the scanner -/

/-- **One alphabet.**  The character that stops the scanner is the first one that no equation
contains. -/
theorem isFirstForeign_of_fault {j : Nat} (s : List Char) {p : Nat}
    (h : (Token.scanFrom ⟨p, s⟩).fault = some (.disallowed c j)) :
    ∃ i, j = p + i ∧ IsFirstForeign s c i := by
  induction s using lexical_induction generalizing p with
  | nil =>
    rw [Token.scanFrom_nil] at h
    cases h
  | blank d s hb ih =>
    rw [Token.scanFrom_blank hb] at h
    obtain ⟨i, rfl, hi⟩ := ih h
    exact ⟨i + 1, by omega, hi.cons ((isAllowed_iff d).2 (Or.inl hb))⟩
  | operator o s ih =>
    rw [Token.scanFrom_operator] at h
    split at h
    · cases h
    · obtain ⟨i, rfl, hi⟩ := ih h
      exact ⟨i + 1, by omega, hi.cons ((isAllowed_iff _).2 (Or.inr (Or.inr (symbol_mem o))))⟩
  | number ds s hne hds hs ih =>
    rw [Token.scanFrom_digits_append hne hds hs] at h
    split at h
    · cases h
    · obtain ⟨i, rfl, hi⟩ := ih h
      exact ⟨ds.length + i, by omega,
        hi.append fun d hd => (isAllowed_iff d).2 (Or.inr (Or.inl (hds d hd)))⟩
  | other d s hb hd ho _ =>
    rw [Token.scanFrom_other hb hd ho] at h
    cases h
    exact ⟨0, rfl, rfl, (isAllowed_eq_false_iff c).2 ⟨hb, hd, ho⟩, by simp⟩

end Expr

namespace Chain

/-- Reading the tokens does not object to characters; only the scanner does. -/
theorem fault_eq_of_reports {c : Char} {i : Nat} {k : Awaited} {fault : Option ExprError}
    (ts : List Token) (h : Reports (.disallowed c i) k ⟨ts, fault⟩) :
    fault = some (.disallowed c i) := by
  induction ts generalizing k with
  | nil =>
    obtain h | ⟨-, -, h⟩ := reports_nil_iff.1 h
    · exact h
    · cases h
  | cons t ts ih =>
    cases hk : t.kind with
    | number =>
      obtain ⟨-, h⟩ | ⟨-, h⟩ := (reports_number_iff hk).1 h
      · exact ih h
      · cases h
    | operator o =>
      obtain ⟨-, h⟩ | ⟨-, -, h⟩ := (reports_operator_iff hk).1 h
      · exact ih h
      · cases h

end Chain

namespace Expr

variable {s : List Char} {c : Char} {i : Nat}

theorem parse_of_maxLength_lt (h : maxLength < s.length) : parse s = .error (.tooLong s.length) :=
  if_pos h

/-- What parsing objects to is the first character that no equation contains. -/
theorem isFirstForeign_of_parse (h : parse s = .error (.disallowed c i)) :
    IsFirstForeign s c i := by
  by_cases hlen : s.length ≤ maxLength
  · obtain ⟨he, -⟩ | hreports := Chain.eq_empty_or_reports (ofTokens_eq_error_of_parse hlen h)
    · cases he
    · have hfault := Chain.fault_eq_of_reports _ hreports
      obtain ⟨j, hj, hforeign⟩ := isFirstForeign_of_fault s hfault
      obtain rfl : i = j := by omega
      exact hforeign
  · rw [parse_of_maxLength_lt (Nat.lt_of_not_le hlen)] at h
    cases h

/-! ## Stage by stage -/

theorem evaluate_of_checkAlphabet_error {e : ExprError}
    (h : checkAlphabet (s.map plainSign) = .error e) : evaluate s = .error e := by
  rw [evaluate_eq, h]
  rfl

theorem evaluate_of_checkAlphabet_ok (h : checkAlphabet (s.map plainSign) = .ok ()) :
    evaluate s = (parse (s.map plainSign)).bind finiteValue := by
  rw [evaluate_eq, h]
  rfl

theorem IsFirstForeign.checkAlphabet_eq (h : IsFirstForeign s c i) :
    checkAlphabet s = .error (.disallowed c i) := by
  have hne : s ≠ [] := by
    rintro rfl
    exact h.not_forall (by simp)
  rw [checkAlphabet, if_neg hne, firstDisallowed_eq_some_iff.2 h]

/-- A character is objected to exactly if it is the first one that no equation contains. -/
theorem evaluate_eq_disallowed_iff :
    evaluate s = .error (.disallowed c i) ↔ IsFirstForeign (s.map plainSign) c i := by
  refine ⟨fun h => ?_, fun h => evaluate_of_checkAlphabet_error h.checkAlphabet_eq⟩
  rcases forall_isAllowed_or_exists (s.map plainSign) with hall | ⟨d, j, hforeign⟩
  · by_cases hnil : s.map plainSign = []
    · rw [evaluate_of_checkAlphabet_error (if_pos hnil)] at h
      cases h
    · rw [evaluate_of_checkAlphabet_ok ((checkAlphabet_eq_ok_iff _).2 ⟨hnil, hall⟩)] at h
      cases hparse : parse (s.map plainSign) with
      | error e =>
        rw [hparse] at h
        cases h
        exact isFirstForeign_of_parse hparse
      | ok t =>
        rw [hparse] at h
        change t.finiteValue = _ at h
        rw [finiteValue] at h
        split at h <;> cases h
  · rw [evaluate_of_checkAlphabet_error hforeign.checkAlphabet_eq] at h
    cases h
    exact hforeign

/-- **The stages of evaluation.**  On any text the check of the characters passes what parses, and
reports what parsing would report of them.  Of a text in which `×` has become `*`: nothing at all is
called empty; otherwise the first character that no equation contains is reported, whatever else is
wrong; otherwise too great a length is; otherwise it is parsed, and its fault, which is none of its
characters, is reported, or the value of its tree, finite or not.  So the values are those of the
trees with a finite value. -/
theorem evaluate_in_stages (cs : List Char) :
    (∀ any, (∀ t, parse any = .ok t → checkAlphabet any = .ok ()) ∧
      ∀ c i, parse any = .error (.disallowed c i) →
        checkAlphabet any = .error (.disallowed c i)) ∧
    let s := cs.map plainSign
    (s = [] → evaluate cs = .error .empty) ∧
    (∀ c i, evaluate cs = .error (.disallowed c i) ↔ IsFirstForeign s c i) ∧
    ((∃ c i, IsFirstForeign s c i) ∨ ∀ c ∈ s, isAllowed c = true) ∧
    ((∀ c ∈ s, isAllowed c = true) → maxLength < s.length →
      evaluate cs = .error (.tooLong s.length)) ∧
    (s ≠ [] → (∀ c ∈ s, isAllowed c = true) → s.length ≤ maxLength →
      (∀ e, parse s = .error e → evaluate cs = .error e ∧ ∀ c i, e ≠ .disallowed c i) ∧
      ∀ t, parse s = .ok t → evaluate cs =
        if t.value.isFinite then .ok t.value else .error (.nonFinite t.value)) ∧
    ∀ v, evaluate cs = .ok v ↔ ∃ t, parse s = .ok t ∧ t.finiteValue = .ok v := by
  refine ⟨fun any => ⟨fun t ht => checkAlphabet_of_parse ht,
    fun c i he => (isFirstForeign_of_parse he).checkAlphabet_eq⟩, ?_⟩
  intro s
  have hpass : s ≠ [] → (∀ c ∈ s, isAllowed c = true) →
      evaluate cs = (parse s).bind finiteValue := fun hne hall =>
    evaluate_of_checkAlphabet_ok ((checkAlphabet_eq_ok_iff s).2 ⟨hne, hall⟩)
  refine ⟨?_, ?_, ?_, ?_, ?_, ?_⟩
  · intro hnil
    exact evaluate_of_checkAlphabet_error (if_pos hnil)
  · intro c i
    exact evaluate_eq_disallowed_iff
  · exact (forall_isAllowed_or_exists s).symm
  · intro hall hlen
    have hne : s ≠ [] := List.ne_nil_of_length_pos (Nat.zero_lt_of_lt hlen)
    rw [hpass hne hall, parse_of_maxLength_lt hlen]
    rfl
  · intro hne hall hlen
    refine ⟨fun e he => ⟨?_, ?_⟩, fun t ht => ?_⟩
    · rw [hpass hne hall, he]
      rfl
    · rintro c i rfl
      exact (isFirstForeign_of_parse he).not_forall hall
    · rw [hpass hne hall, ht]
      rfl
  · intro v
    exact evaluate_eq_ok_iff_parse

/-- A letter at the end is reported, and not the increment in front. -/
example : evaluate "++1a".toList = .error (.disallowed 'a' 3) := rfl

end Expr

end HiddenEquation
