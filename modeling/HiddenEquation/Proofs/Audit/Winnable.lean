import HiddenEquation.Audit
import HiddenEquation.Proofs.Round.Submission

/-!
# An audit decides which puzzles can be won

A puzzle passes its audit exactly if some guess solves it.  That guess holds the characters of
the solution, so the audit needs to look at the value of the solution only, and two of the faults
that it knows are never found.

* `Puzzle.audit_cases` : all that an audit can find.
* `Puzzle.isSound_of_solved` : a puzzle that some guess solves is sound.
* `audit_iff_winnable` : audits, guesses and rounds agree on which puzzles can be won.
-/

namespace HiddenEquation

/-- The text of a solution spells the solution. -/
theorem Solution.ofString_text (s : Solution) : Guess.ofString s.text = s.toGuess := by
  rw [Guess.ofString, text, String.toList_ofList]
  exact Guess.ofChars_chars s.toGuess

namespace Puzzle

variable {p : Puzzle}

/-- The value of the solution is the target. -/
def IsSound (p : Puzzle) : Prop :=
  ∃ value, Expr.evaluate p.solution.chars = .ok value ∧ (value == targetFloat p.target) = true

/-- The characters of a sound solution may all stand in an equation. -/
theorem IsSound.isAllowed (h : p.IsSound) : ∀ c ∈ p.solution.chars, Expr.isAllowed c = true := by
  obtain ⟨value, hvalue, -⟩ := h
  exact Expr.isAllowed_of_evaluate p.solution.plain hvalue

/-! ## A puzzle that some guess solves -/

/-- The solution of a sound puzzle solves it. -/
theorem IsSound.exists_check_toGuess (h : p.IsSound) :
    ∃ v, checkGuess p.solution.toGuess p.target p.solution = .ok v ∧ v.solved = true := by
  obtain ⟨value, hvalue, heq⟩ := h
  have hlen : p.solution.toGuess.length = p.solution.length := p.solution.length_toGuess
  exact ⟨_, checkGuess_of_eq hlen hvalue heq, (Feedback.solved_ofChars_iff_eq hlen).2 rfl⟩

/-- A guess that solves a puzzle is its solution, so the solution has been evaluated with it. -/
theorem isSound_of_solved {g : Guess} {v : Verdict}
    (h : checkGuess g p.target p.solution = .ok v) (hsolved : v.solved = true) : p.IsSound := by
  obtain ⟨-, hgraded⟩ := isGraded_of_valid h (valid_of_solved h hsolved)
  obtain ⟨value, hvalue, heq, -⟩ := hgraded.evaluate
  have hchars : g.chars = p.solution.chars := hgraded.solved_iff_eq.1 hsolved
  rw [hchars] at hvalue
  exact ⟨value, hvalue, heq⟩

/-! ## What an audit finds -/

theorem audit_of_isSound (h : p.IsSound) : p.audit = .ok () := by
  obtain ⟨v, hv, hsolved⟩ := h.exists_check_toGuess
  obtain ⟨value, hvalue, heq⟩ := h
  rw [audit, hvalue]
  dsimp only
  rw [if_pos heq, hv]
  dsimp only
  rw [if_pos hsolved]

theorem audit_of_error {e : ExprError} (he : Expr.evaluate p.solution.chars = .error e) :
    p.audit = .error (.expression e) := by
  rw [audit, he]

theorem audit_of_ne {value : Float} (hvalue : Expr.evaluate p.solution.chars = .ok value)
    (hne : (value == targetFloat p.target) = false) :
    p.audit = .error (.wrongValue value p.target) := by
  rw [audit, hvalue]
  dsimp only
  rw [if_neg (by rw [hne]; exact Bool.false_ne_true)]

/-- All that an audit can find.  Only the value of the solution decides: once it is the target,
the comparison of the solution with itself finds nothing wrong any more. -/
theorem audit_cases (p : Puzzle) :
    (p.IsSound ∧ p.audit = .ok ()) ∨
    (∃ e, Expr.evaluate p.solution.chars = .error e ∧ p.audit = .error (.expression e)) ∨
    (∃ value, Expr.evaluate p.solution.chars = .ok value ∧
      (value == targetFloat p.target) = false ∧ p.audit = .error (.wrongValue value p.target)) := by
  cases hvalue : Expr.evaluate p.solution.chars with
  | error e => exact Or.inr (Or.inl ⟨e, rfl, audit_of_error hvalue⟩)
  | ok value =>
    cases heq : value == targetFloat p.target with
    | false => exact Or.inr (Or.inr ⟨value, rfl, heq, audit_of_ne hvalue heq⟩)
    | true =>
      have hsound : p.IsSound := ⟨value, hvalue, heq⟩
      exact Or.inl ⟨hsound, audit_of_isSound hsound⟩

theorem audit_eq_ok_iff : p.audit = .ok () ↔ p.IsSound := by
  refine ⟨fun h => ?_, audit_of_isSound⟩
  rcases p.audit_cases with ⟨hsound, -⟩ | ⟨e, -, herror⟩ | ⟨value, -, -, herror⟩
  · exact hsound
  · rw [herror] at h
    cases h
  · rw [herror] at h
    cases h

/-- A failed audit is about the value of the solution. -/
theorem eq_of_audit_eq_error {f : AuditFault} (h : p.audit = .error f) :
    (∃ e, f = .expression e) ∨ ∃ value, f = .wrongValue value p.target := by
  rcases p.audit_cases with ⟨-, hok⟩ | ⟨e, -, herror⟩ | ⟨value, -, -, herror⟩
  · rw [hok] at h
    cases h
  · rw [herror] at h
    cases h
    exact Or.inl ⟨e, rfl⟩
  · rw [herror] at h
    cases h
    exact Or.inr ⟨value, rfl⟩

end Puzzle

/-! ## A round at a puzzle of a book -/

section

variable {b : Book} {p : Puzzle}

/-- A round at a sound puzzle is won by its solution, however few attempts there are. -/
theorem won_after_solution (hp : p ∈ b.puzzles) (h : p.IsSound) (n : Nat) :
    ((Round.new (.ofPuzzle p b.length) (n + 1)).after b p.solution.toGuess).status = .won := by
  obtain ⟨v, hv, hsolved⟩ := h.exists_check_toGuess
  have hplay := Round.status_new_succ (.ofPuzzle p b.length) n
  have hcheck : b.check p.solution.toGuess p.target = .ok v :=
    (Book.check_eq_ok_iff_of_mem hp).2 hv
  rw [Round.after_of_valid hplay hcheck (valid_of_solved hv hsolved), Round.status_eq_won_iff]
  exact ⟨⟨p.solution.toGuess, v⟩, by simp, hsolved⟩

/-- A round that is won shows that its puzzle is sound. -/
theorem isSound_of_won (hp : p ∈ b.puzzles) {n : Nat} {guesses : List Guess}
    (h : ((Round.new (.ofPuzzle p b.length) n).play b guesses).status = .won) : p.IsSound := by
  obtain ⟨a, ha, hsolved⟩ := Round.status_eq_won_iff.1 h
  have hanswered := (Round.answeredBy_new b (.ofPuzzle p b.length) n).play guesses a ha
  rw [Round.challenge_play] at hanswered
  exact Puzzle.isSound_of_solved ((Book.check_eq_ok_iff_of_mem hp).1 hanswered) hsolved

end

theorem Audit.failure?_eq_none_iff {p : Puzzle} : failure? p = none ↔ p.IsSound := by
  rw [← Puzzle.audit_eq_ok_iff, failure?]
  split
  · rename_i h
    simp [h]
  · rename_i f h
    simp [h]

/-- A report is clean exactly if all puzzles are sound. -/
theorem Book.clean_audit_iff (b : Book) : b.audit.clean = true ↔ ∀ p ∈ b.puzzles, p.IsSound := by
  have hnil : b.audit.failures = [] ↔ b.puzzles.filterMap Audit.failure? = [] := by
    rw [audit, Audit.report, ← List.length_eq_zero_iff, List.length_mergeSort,
      List.length_eq_zero_iff]
  rw [AuditReport.clean, List.isEmpty_iff, hnil, List.filterMap_eq_nil_iff]
  simp only [Audit.failure?_eq_none_iff]

/-- **An audit decides which puzzles can be won.**  A puzzle passes if some guess solves it, that
is, if its solution has the target as its value, and no audit fails because of the comparison.
The report on a book is clean exactly if each of its puzzles can be won in a round with at least
one attempt, and then the solution wins it as the first guess. -/
theorem audit_iff_winnable :
    (∀ p : Puzzle,
      (p.audit = .ok () ↔ ∃ g v, checkGuess g p.target p.solution = .ok v ∧ v.solved = true) ∧
      (p.audit = .ok () ↔ ∃ value, Expr.evaluate p.solution.chars = .ok value ∧
        (value == targetFloat p.target) = true) ∧
      p.audit ≠ .error .unsolved ∧ ∀ m, p.audit ≠ .error (.length m)) ∧
    ∀ (b : Book) (n : Nat),
      (b.audit.clean = true ↔ ∀ p ∈ b.puzzles, ∃ guesses,
        ((Round.new (.ofPuzzle p b.length) (n + 1)).play b guesses).status = .won) ∧
      (b.audit.clean = true ↔ ∀ p ∈ b.puzzles,
        ((Round.new (.ofPuzzle p b.length) (n + 1)).after b
          (.ofString p.solution.text)).status = .won) := by
  refine ⟨fun p => ⟨?_, Puzzle.audit_eq_ok_iff, ?_, ?_⟩, fun b n => ?_⟩
  · rw [Puzzle.audit_eq_ok_iff]
    constructor
    · intro h
      obtain ⟨v, hv, hsolved⟩ := h.exists_check_toGuess
      exact ⟨_, v, hv, hsolved⟩
    · rintro ⟨g, v, hv, hsolved⟩
      exact Puzzle.isSound_of_solved hv hsolved
  · intro h
    rcases Puzzle.eq_of_audit_eq_error h with ⟨e, hf⟩ | ⟨value, hf⟩ <;> cases hf
  · intro m h
    rcases Puzzle.eq_of_audit_eq_error h with ⟨e, hf⟩ | ⟨value, hf⟩ <;> cases hf
  · rw [b.clean_audit_iff]
    constructor
    · refine forall₂_congr fun p hp => ⟨fun h => ?_, fun ⟨guesses, hwon⟩ => isSound_of_won hp hwon⟩
      exact ⟨[p.solution.toGuess], won_after_solution hp h n⟩
    · refine forall₂_congr fun p hp => ?_
      rw [Solution.ofString_text]
      refine ⟨fun h => won_after_solution hp h n, fun hwon => ?_⟩
      rw [← Round.play_nil (Round.after _ _ _) b, ← Round.play_cons] at hwon
      exact isSound_of_won hp hwon

end HiddenEquation
