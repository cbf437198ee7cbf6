import HiddenEquation.Check
import HiddenEquation.Proofs.Expr.Evaluation
import HiddenEquation.Proofs.Feedback.Matching

/-!
# What an answer to a guess says

Three kinds of answer: `Verdict.HasNoValue`, `Verdict.HasOtherValue` and `Verdict.IsGraded`,
each with all that its kind promises.  Every guess of the right length gets an answer of
exactly one kind, and a guess of another length gets none.

* `checkGuess_eq_error_iff` : only the lengths decide whether there is an answer.
* `checkGuess_contract` : the answer to a guess, in all cases.
-/

namespace HiddenEquation

namespace Verdict

/-- A refused guess: nothing is given away but that it is refused. -/
structure IsRefused (guess : Guess) (r : Verdict) : Prop where
  valid : r.valid = false
  solved : r.solved = false
  marks : r.feedback.marks = List.replicate guess.length .absent

/-- The answer to a guess that has no finite value. -/
structure HasNoValue (guess : Guess) (r : Verdict) : Prop extends IsRefused guess r where
  evaluate : ∃ e, Expr.evaluate guess.chars = .error e
  value : r.value = none
  message : r.message = some invalidMessage

/-- The answer to a guess whose value is not the target. -/
structure HasOtherValue (guess : Guess) (target : Int64) (r : Verdict) : Prop
    extends IsRefused guess r where
  evaluate : ∃ v, Expr.evaluate guess.chars = .ok v ∧ (v == targetFloat target) = false ∧
    r.value = some v ∧ r.message = some (wrongValueMessage v target)

/-- The answer to a guess whose value is the target. -/
structure IsGraded (guess : Guess) (target : Int64) (solution : Solution) (r : Verdict) :
    Prop where
  valid : r.valid = true
  evaluate : ∃ v, Expr.evaluate guess.chars = .ok v ∧ (v == targetFloat target) = true ∧
    r.value = some v
  feedback : Feedback.compare guess solution = .ok r.feedback
  solved_iff_correct : r.solved = true ↔ ∀ m ∈ r.feedback.marks, m = .correct
  solved_iff_eq : r.solved = true ↔ guess.chars = solution.chars
  solved_iff_message : r.solved = true ↔ r.message.isSome = true

end Verdict

/-! ## Feedback of a guess of the right length -/

namespace Feedback

theorem compare_of_length_eq {g : Guess} {s : Solution} (h : g.length = s.length) :
    compare g s = .ok (ofChars g.chars s.chars) := if_pos h

/-- A solution has slots, so feedback on it is solved exactly if all slots are correct. -/
theorem solved_ofChars_iff {g : Guess} {s : Solution} (h : g.length = s.length) :
    (ofChars g.chars s.chars).solved = true ↔
      ∀ m ∈ (ofChars g.chars s.chars).marks, m = .correct := by
  have hne : (ofChars g.chars s.chars).marks ≠ [] := by
    intro hnil
    have hlen : (ofChars g.chars s.chars).marks.length = g.length := length_ofChars h
    have hpos := s.length_pos
    rw [hnil, List.length_nil] at hlen
    omega
  rw [solved, Bool.and_eq_true, List.all_eq_true]
  constructor
  · rintro ⟨-, hall⟩ m hm
    exact eq_of_beq (hall m hm)
  · intro hall
    exact ⟨by simpa using hne, fun m hm => beq_iff_eq.2 (hall m hm)⟩

/-- Feedback is solved exactly if guess and solution hold the same characters. -/
theorem solved_ofChars_iff_eq {g : Guess} {s : Solution} (h : g.length = s.length) :
    (ofChars g.chars s.chars).solved = true ↔ g.chars = s.chars := by
  have hlen : g.chars.length = s.chars.length := h
  rw [solved_ofChars_iff h]
  exact IsMatching.forall_correct_iff hlen ((isMatching_iff hlen).2 rfl)

end Feedback

/-! ## The three kinds of answer -/

section

variable {guess : Guess} {target : Int64} {solution : Solution}

theorem checkGuess_of_error {e : ExprError} (h : guess.length = solution.length)
    (he : Expr.evaluate guess.chars = .error e) :
    checkGuess guess target solution =
      .ok (.rejected guess.length none Verdict.invalidMessage) := by
  rw [checkGuess, if_neg (not_not.2 h), he]

theorem checkGuess_of_ne {v : Float} (h : guess.length = solution.length)
    (hv : Expr.evaluate guess.chars = .ok v) (hne : (v == targetFloat target) = false) :
    checkGuess guess target solution =
      .ok (.rejected guess.length (some v) (Verdict.wrongValueMessage v target)) := by
  rw [checkGuess, if_neg (not_not.2 h), hv]
  dsimp only
  rw [if_neg (by rw [hne]; exact Bool.false_ne_true)]

theorem checkGuess_of_eq {v : Float} (h : guess.length = solution.length)
    (hv : Expr.evaluate guess.chars = .ok v) (heq : (v == targetFloat target) = true) :
    checkGuess guess target solution =
      .ok (.graded (Feedback.ofChars guess.chars solution.chars) v) := by
  rw [checkGuess, if_neg (not_not.2 h), hv]
  dsimp only
  rw [if_pos heq, Feedback.compare_of_length_eq h]

/-- Only the lengths decide whether a guess is answered: the comparison after evaluation
never fails. -/
theorem checkGuess_eq_error_iff {e : LengthMismatch} :
    checkGuess guess target solution = .error e ↔
      guess.length ≠ solution.length ∧ e = ⟨solution.length, guess.length⟩ := by
  by_cases h : guess.length = solution.length
  · refine iff_of_false (fun herr => ?_) (fun h' => h'.1 h)
    cases hv : Expr.evaluate guess.chars with
    | error e' =>
      rw [checkGuess_of_error h hv] at herr
      cases herr
    | ok v =>
      cases heq : v == targetFloat target with
      | false =>
        rw [checkGuess_of_ne h hv heq] at herr
        cases herr
      | true =>
        rw [checkGuess_of_eq h hv heq] at herr
        cases herr
  · rw [checkGuess, if_pos h, Except.error.injEq]
    constructor
    · rintro rfl
      exact ⟨h, rfl⟩
    · rintro ⟨-, rfl⟩
      rfl

theorem Verdict.isRefused_rejected (guess : Guess) (value : Option Float) (message : String) :
    IsRefused guess (rejected guess.length value message) := ⟨rfl, rfl, rfl⟩

theorem Verdict.isGraded_graded {v : Float} (h : guess.length = solution.length)
    (hv : Expr.evaluate guess.chars = .ok v) (heq : (v == targetFloat target) = true) :
    IsGraded guess target solution
      (graded (Feedback.ofChars guess.chars solution.chars) v) := by
  refine ⟨rfl, ⟨v, hv, heq, rfl⟩, Feedback.compare_of_length_eq h,
    Feedback.solved_ofChars_iff h, Feedback.solved_ofChars_iff_eq h, ?_⟩
  cases hs : (Feedback.ofChars guess.chars solution.chars).solved <;> simp [graded, hs]

/-- Every guess of the right length gets an answer of one of the three kinds. -/
theorem exists_checkGuess_eq_ok (target : Int64) (h : guess.length = solution.length) :
    ∃ r, checkGuess guess target solution = .ok r ∧
      (r.HasNoValue guess ∨ r.HasOtherValue guess target ∨ r.IsGraded guess target solution) := by
  cases hv : Expr.evaluate guess.chars with
  | error e =>
    exact ⟨_, checkGuess_of_error h hv,
      Or.inl ⟨Verdict.isRefused_rejected _ _ _, ⟨e, hv⟩, rfl, rfl⟩⟩
  | ok v =>
    cases heq : v == targetFloat target with
    | false =>
      exact ⟨_, checkGuess_of_ne h hv heq,
        Or.inr (Or.inl ⟨Verdict.isRefused_rejected _ _ _, ⟨v, hv, heq, rfl, rfl⟩⟩)⟩
    | true =>
      exact ⟨_, checkGuess_of_eq h hv heq, Or.inr (Or.inr (Verdict.isGraded_graded h hv heq))⟩

end

namespace Verdict

variable {guess : Guess} {target : Int64} {solution : Solution} {r : Verdict}

theorem IsRefused.length_marks (h : r.IsRefused guess) :
    r.feedback.marks.length = guess.length := by
  rw [h.marks, List.length_replicate]

theorem IsGraded.length_marks (h : r.IsGraded guess target solution)
    (hlen : guess.length = solution.length) : r.feedback.marks.length = guess.length := by
  have hf := h.feedback
  rw [Feedback.compare_of_length_eq hlen, Except.ok.injEq] at hf
  rw [← hf]
  exact Feedback.length_ofChars hlen

/-- A refused guess is not graded, since only a graded one is valid. -/
theorem IsRefused.not_isGraded (h : r.IsRefused guess) : ¬r.IsGraded guess target solution := by
  intro hg
  have hvalid := h.valid
  rw [hg.valid] at hvalid
  cases hvalid

theorem HasNoValue.not_hasOtherValue (h : r.HasNoValue guess) :
    ¬r.HasOtherValue guess target := by
  rintro ⟨-, v, -, -, hv, -⟩
  rw [h.value] at hv
  cases hv

theorem isFinite_of_evaluated {v w : Float} (hv : Expr.evaluate guess.chars = .ok v)
    (hr : r.value = some v) (hw : r.value = some w) : w.isFinite = true := by
  rw [hr, Option.some.injEq] at hw
  rw [← hw]
  exact Expr.isFinite_of_evaluate hv

end Verdict

section

variable {guess : Guess} {target : Int64} {solution : Solution} {r : Verdict}

/-- Whatever is answered, the length was right and the answer is of one of the three kinds. -/
theorem kind_of_checkGuess (h : checkGuess guess target solution = .ok r) :
    guess.length = solution.length ∧
      (r.HasNoValue guess ∨ r.HasOtherValue guess target ∨ r.IsGraded guess target solution) := by
  by_cases hlen : guess.length = solution.length
  · obtain ⟨r', hr', hkind⟩ := exists_checkGuess_eq_ok target hlen
    rw [h, Except.ok.injEq] at hr'
    subst hr'
    exact ⟨hlen, hkind⟩
  · rw [checkGuess_eq_error_iff.2 ⟨hlen, rfl⟩] at h
    cases h

/-- Only a guess of the right length and the right value is valid. -/
theorem isGraded_of_valid (h : checkGuess guess target solution = .ok r) (hvalid : r.valid = true) :
    guess.length = solution.length ∧ r.IsGraded guess target solution := by
  obtain ⟨hlen, hk | hk | hk⟩ := kind_of_checkGuess h
  · rw [hk.valid] at hvalid
    cases hvalid
  · rw [hk.valid] at hvalid
    cases hvalid
  · exact ⟨hlen, hk⟩

/-- Only a valid guess solves the puzzle. -/
theorem valid_of_solved (h : checkGuess guess target solution = .ok r) (hsolved : r.solved = true) :
    r.valid = true := by
  obtain ⟨-, hk | hk | hk⟩ := kind_of_checkGuess h
  · rw [hk.solved] at hsolved
    cases hsolved
  · rw [hk.solved] at hsolved
    cases hsolved
  · exact hk.valid

end

/-- **The contract of an answer.**  There is no answer exactly if the lengths differ, whatever
the guess evaluates to.  Otherwise the answer has a mark to a slot and no value that is not
finite, and is of exactly one of the three kinds. -/
theorem checkGuess_contract (guess : Guess) (target : Int64) (solution : Solution) :
    (∀ e, checkGuess guess target solution = .error e ↔
      guess.length ≠ solution.length ∧ e = ⟨solution.length, guess.length⟩) ∧
    (guess.length = solution.length → ∃ r, checkGuess guess target solution = .ok r ∧
      r.feedback.marks.length = guess.length ∧ (∀ v, r.value = some v → v.isFinite = true) ∧
      (r.HasNoValue guess ∨ r.HasOtherValue guess target ∨ r.IsGraded guess target solution) ∧
      ¬(r.HasNoValue guess ∧ r.HasOtherValue guess target) ∧
      ¬(r.HasNoValue guess ∧ r.IsGraded guess target solution) ∧
      ¬(r.HasOtherValue guess target ∧ r.IsGraded guess target solution)) := by
  refine ⟨fun e => checkGuess_eq_error_iff, fun h => ?_⟩
  obtain ⟨r, hr, hkind⟩ := exists_checkGuess_eq_ok target h
  refine ⟨r, hr, ?_, ?_, hkind, fun hk => hk.1.not_hasOtherValue hk.2,
    fun hk => hk.1.not_isGraded hk.2, fun hk => hk.1.not_isGraded hk.2⟩
  · rcases hkind with hk | hk | hk
    · exact hk.length_marks
    · exact hk.length_marks
    · exact hk.length_marks h
  · intro w hw
    rcases hkind with hk | hk | hk
    · have hnone := hk.value
      rw [hw] at hnone
      cases hnone
    · obtain ⟨v, hv, -, hr, -⟩ := hk.evaluate
      exact Verdict.isFinite_of_evaluated hv hr hw
    · obtain ⟨v, hv, -, hr⟩ := hk.evaluate
      exact Verdict.isFinite_of_evaluated hv hr hw

end HiddenEquation
