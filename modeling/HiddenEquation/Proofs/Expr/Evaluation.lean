import HiddenEquation.Proofs.Expr.Grammar

/-!
# Evaluation of a text

When a text has a value.  The stages of `Expr.evaluate` are taken apart once; whatever else
is said of an evaluated text goes through these statements.

* `Expr.evaluate_eq_ok_iff` : a text has a value if it passes every stage.
* `Expr.evaluate_eq_ok_iff_parse` : a text that parses has passed the check of its characters.
* `Expr.isFinite_of_evaluate` : a value is finite.
-/

namespace HiddenEquation

namespace Expr

theorem isAllowed_iff (c : Char) : isAllowed c = true ↔
    Text.isBlank c = true ∨ c.isDigit = true ∨ c ∈ ['+', '-', '*', '/'] := by
  have hop : (Operator.ofChar? c).isSome = true ↔ c ∈ ['+', '-', '*', '/'] := by
    rw [Option.isSome_iff_exists]
    constructor
    · rintro ⟨o, ho⟩
      rw [Operator.eq_symbol_of_ofChar? ho]
      exact Text.symbol_mem o
    · intro hc
      obtain ⟨o, rfl⟩ := Text.exists_symbol_of_mem hc
      exact ⟨o, Operator.ofChar?_symbol o⟩
  rw [isAllowed, Bool.or_eq_true, Bool.or_eq_true, hop]
  constructor
  · rintro ((hd | ho) | hb)
    · exact Or.inr (Or.inl hd)
    · exact Or.inr (Or.inr ho)
    · exact Or.inl hb
  · rintro (hb | hd | ho)
    · exact Or.inr hb
    · exact Or.inl (Or.inl hd)
    · exact Or.inl (Or.inr ho)

theorem firstDisallowed_eq_none_iff (s : List Char) :
    firstDisallowed s = none ↔ ∀ c ∈ s, isAllowed c = true := by
  rw [firstDisallowed, List.find?_eq_none]
  constructor
  · intro h c hc
    obtain ⟨i, hi, rfl⟩ := List.getElem_of_mem hc
    have hmem : (s[i], i) ∈ s.zipIdx := by
      rw [List.mem_zipIdx_iff_getElem?]
      exact List.getElem?_eq_getElem hi
    simpa using h _ hmem
  · rintro h ⟨c, i⟩ hmem
    rw [List.mem_zipIdx_iff_getElem?] at hmem
    simpa using h c (List.mem_of_getElem? hmem)

theorem checkAlphabet_eq_ok_iff (s : List Char) :
    checkAlphabet s = .ok () ↔ s ≠ [] ∧ ∀ c ∈ s, isAllowed c = true := by
  unfold checkAlphabet
  split
  · rename_i h
    exact iff_of_false (by simp) fun h' => h'.1 h
  · rename_i h
    rw [← firstDisallowed_eq_none_iff]
    cases hf : firstDisallowed s with
    | none => exact iff_of_true rfl ⟨h, rfl⟩
    | some c => exact iff_of_false (by simp) fun h' => by cases h'.2

theorem finiteValue_eq_ok_iff {e : Expr Float} {v : Float} :
    e.finiteValue = .ok v ↔ e.value.isFinite = true ∧ e.value = v := by
  unfold finiteValue
  split
  · rename_i h
    simp [h]
  · rename_i h
    simp [h]

theorem evaluate_eq (s : List Char) : evaluate s = (checkAlphabet (s.map plainSign)).bind fun _ =>
    (parse (s.map plainSign)).bind finiteValue := rfl

/-- A text has a value if its characters are allowed, it parses, and its tree is finite. -/
theorem evaluate_eq_ok_iff {s : List Char} {v : Float} : evaluate s = .ok v ↔
    checkAlphabet (s.map plainSign) = .ok () ∧
      ∃ e, parse (s.map plainSign) = .ok e ∧ e.finiteValue = .ok v := by
  rw [evaluate_eq]
  cases checkAlphabet (s.map plainSign) with
  | error e => simp [Except.bind]
  | ok u => cases parse (s.map plainSign) <;> simp [Except.bind]

/-- The characters of a text with a value may all stand in an equation. -/
theorem isAllowed_of_evaluate {s : List Char} {v : Float} (hplain : multiplicationGlyph ∉ s)
    (h : evaluate s = .ok v) : ∀ c ∈ s, isAllowed c = true := by
  obtain ⟨halphabet, -⟩ := evaluate_eq_ok_iff.1 h
  rw [map_plainSign_of_not_mem hplain] at halphabet
  exact ((checkAlphabet_eq_ok_iff s).1 halphabet).2

theorem isFinite_of_evaluate {s : List Char} {v : Float} (h : evaluate s = .ok v) :
    v.isFinite = true := by
  obtain ⟨-, e, -, he⟩ := evaluate_eq_ok_iff.1 h
  obtain ⟨hfinite, rfl⟩ := finiteValue_eq_ok_iff.1 he
  exact hfinite

/-- A text that parses is not empty and has allowed characters only, so for its value the
check of the characters decides nothing. -/
theorem checkAlphabet_of_parse {s : List Char} {e : Expr Float} (h : parse s = .ok e) :
    checkAlphabet s = .ok () := by
  obtain ⟨-, hread⟩ := parse_eq_ok_iff.1 h
  obtain ⟨hlegal, -, w, hw, -⟩ := read_eq_ok_iff.1 hread
  refine (checkAlphabet_eq_ok_iff s).2 ⟨?_, fun c hc => (isAllowed_iff c).2 (hlegal.alphabet c hc)⟩
  rintro rfl
  exact w.lexemes_ne_nil hw.symm

theorem evaluate_eq_ok_iff_parse {s : List Char} {v : Float} : evaluate s = .ok v ↔
    ∃ e, parse (s.map plainSign) = .ok e ∧ e.finiteValue = .ok v := by
  rw [evaluate_eq_ok_iff]
  constructor
  · rintro ⟨-, h⟩
    exact h
  · rintro ⟨e, he, hv⟩
    exact ⟨checkAlphabet_of_parse he, e, he, hv⟩

/-- A text that parses has passed every stage but the last. -/
theorem evaluate_of_parse {s : List Char} {e : Expr Float}
    (h : parse (s.map plainSign) = .ok e) : evaluate s = e.finiteValue := by
  rw [evaluate_eq, checkAlphabet_of_parse h, h]
  rfl

theorem finiteValue_of_not_isFinite {e : Expr Float} (h : ¬e.value.isFinite = true) :
    e.finiteValue = .error (.nonFinite e.value) := if_neg h

end Expr

end HiddenEquation
