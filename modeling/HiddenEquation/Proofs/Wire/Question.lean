import HiddenEquation.Proofs.Book.Draw
import HiddenEquation.Proofs.Wire.Exact
import HiddenEquation.Question

/-!
# Two ways to ask about a guess

A guess is asked about as an equation, whose signs are replaced when it is entered, or as the JSON
text of a request, whose slots hold what was typed and are replaced when the guess is made of them.
Replacing a second time changes nothing, so the book sees one guess both times.

* `Question.request_json` : a request that is written, in any layout, is what its text asks.
* `Book.ask_of_request` : the answer depends on the guess and the target that are asked about.
* `Book.ask_either_way` : both ways have one answer.
-/

namespace HiddenEquation

/-- Answers that say the same: one verdict on one guess at one target, or one refusal. -/
inductive SameAnswer :
    Except QuestionError (Request × Verdict) → Except QuestionError (Request × Verdict) → Prop where
  | answered {r r' : Request} (v : Verdict) (hguess : r.guess = r'.guess)
      (htarget : r.target = r'.target) : SameAnswer (.ok (r, v)) (.ok (r', v))
  | refused (e : CheckError) : SameAnswer (.error (.check e)) (.error (.check e))

namespace Question

/-- The equation asks about its characters, the signs replaced. -/
theorem request_equation (text : List Char) (target : Int64) :
    (equation text target).request = .ok (.ofGuess (.ofChars text) target) := rfl

/-- The text of a request asks for that request. -/
theorem request_json (r : Request) (l : Json.Layout) :
    (json ((Wire.requestDocument r).spell l 0)).request = .ok r :=
  (Wire.reads_request r).readAll

end Question

/-- The guess of a guess's request is the guess. -/
theorem Request.guess_ofGuess (g : Guess) (target : Int64) : (ofGuess g target).guess = g :=
  Guess.ofChars_chars g

namespace Book

variable {b : Book} {q q' : Question} {r r' : Request}

/-- A question that comes down to a request is answered by the check of the guess. -/
theorem ask_of_request (h : q.request = .ok r) :
    b.ask q = match b.check r.guess r.target with
      | .error e => .error (.check e)
      | .ok v => .ok (r, v) := by
  rw [ask, h]
  rfl

/-- A question that comes down to a request is refused just by the check of the guess. -/
theorem ask_eq_error_iff (h : q.request = .ok r) {e : QuestionError} :
    b.ask q = .error e ↔ ∃ e', b.check r.guess r.target = .error e' ∧ e = .check e' := by
  rw [ask_of_request h]
  cases b.check r.guess r.target with
  | error e' => simp [eq_comm]
  | ok v => simp

/-- Questions about one guess at one target have one answer. -/
theorem sameAnswer_of_request (h : q.request = .ok r) (h' : q'.request = .ok r')
    (hguess : r.guess = r'.guess) (htarget : r.target = r'.target) :
    SameAnswer (b.ask q) (b.ask q') := by
  rw [ask_of_request h, ask_of_request h', ← hguess, ← htarget]
  cases b.check r.guess r.target with
  | error e => exact .refused e
  | ok v => exact .answered v hguess htarget

/-- An equation and a request with its characters as they were typed have one answer. -/
theorem sameAnswer_of_slots (b : Book) (h : q.request = .ok r) :
    SameAnswer (b.ask (.equation r.slots r.target)) (b.ask q) :=
  sameAnswer_of_request (Question.request_equation r.slots r.target) h
    (Request.guess_ofGuess (.ofChars r.slots) r.target) rfl

/-- A check is refused if the target is unknown, and otherwise for the length of the guess only. -/
theorem check_eq_error_iff {g : Guess} {target : Int64} {e : CheckError} :
    b.check g target = .error e ↔
      (b.get? target = none ∧ e = .unknownTarget target) ∨
      (b.get? target ≠ none ∧ g.length ≠ b.length ∧ e = .lengthMismatch ⟨b.length, g.length⟩) := by
  cases hget : b.get? target with
  | none =>
    rw [check, find, hget]
    simp [eq_comm]
  | some p =>
    obtain ⟨hp, rfl⟩ := mem_of_get? hget
    rw [check_eq_error_iff_of_mem hp]
    simp

/-- **Both ways to ask about a guess have one answer.**  The equation and the JSON text of the
request that holds its characters, in any layout and in the two that are written, have the same
verdict on the same guess or are refused alike, for an unknown target or for the length. -/
theorem ask_either_way (b : Book) (text : List Char) (target : Int64) :
    (∀ l, SameAnswer (b.ask (.equation text target))
      (b.ask (.json ((Wire.requestDocument ⟨text, target⟩).spell l 0)))) ∧
    SameAnswer (b.ask (.equation text target))
      (b.ask (.json (Wire.requestDocument ⟨text, target⟩).compact.toList)) ∧
    SameAnswer (b.ask (.equation text target))
      (b.ask (.json (Wire.requestDocument ⟨text, target⟩).pretty.toList)) ∧
    ∀ e, b.ask (.equation text target) = .error e ↔
      (b.get? target = none ∧ e = .check (.unknownTarget target)) ∨
      (b.get? target ≠ none ∧ text.length ≠ b.length ∧
        e = .check (.lengthMismatch ⟨b.length, text.length⟩)) := by
  have hlayout (l : Json.Layout) : SameAnswer (b.ask (.equation text target))
      (b.ask (.json ((Wire.requestDocument ⟨text, target⟩).spell l 0))) :=
    b.sameAnswer_of_slots (Question.request_json ⟨text, target⟩ l)
  refine ⟨hlayout, ?_, ?_, ?_⟩
  · rw [Json.Document.toList_compact _ 0]
    exact hlayout .compact
  · rw [Json.Document.toList_pretty]
    exact hlayout .pretty
  · intro e
    rw [ask_eq_error_iff (Question.request_equation text target), Request.guess_ofGuess]
    constructor
    · rintro ⟨e, he, rfl⟩
      rcases check_eq_error_iff.1 he with ⟨hnone, rfl⟩ | ⟨hsome, hlength, rfl⟩
      · exact .inl ⟨hnone, rfl⟩
      · rw [Guess.length_ofChars] at hlength ⊢
        exact .inr ⟨hsome, hlength, rfl⟩
    · rintro (⟨hnone, rfl⟩ | ⟨hsome, hlength, rfl⟩)
      · exact ⟨_, check_eq_error_iff.2 (.inl ⟨hnone, rfl⟩), rfl⟩
      · rw [← Guess.length_ofChars text] at hlength ⊢
        exact ⟨_, check_eq_error_iff.2 (.inr ⟨hsome, hlength, rfl⟩), rfl⟩

end Book

end HiddenEquation
