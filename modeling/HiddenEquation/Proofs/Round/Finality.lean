import HiddenEquation.Proofs.Round.History

/-!
# Rounds under changing books

Nothing ties a round to one book: every guess may be checked with another.  What a guess does to a
round, and what it leaves alone, holds all the same.

* `Round.submit_of_valid` : a valid guess is one more attempt, and one fewer is left.
* `Round.Proper.playAmong` : what every round in play is like holds under changing books.
* `Round.atomic_and_final` : a guess is recorded as a whole or not at all, and a round that is over
  stays over.
-/

namespace HiddenEquation

namespace Round

variable {r next : Round} {b : Book} {g : Guess} {v : Verdict}

/-! ## Guesses with a book each -/

/-- The round after several guesses, each checked with a book of its own. -/
def playAmong (r : Round) (guesses : List (Book × Guess)) : Round :=
  guesses.foldl (fun r p => r.after p.1 p.2) r

/-- What one guess keeps, whatever the book, any number of guesses keeps. -/
theorem playAmong_induction {P : Round → Prop} (hstep : ∀ r b g, P r → P (r.after b g)) (h : P r)
    (gs : List (Book × Guess)) : P (r.playAmong gs) := by
  induction gs generalizing r with
  | nil => exact h
  | cons p gs ih => exact ih (hstep r p.1 p.2 h)

theorem challenge_playAmong (gs : List (Book × Guess)) :
    (r.playAmong gs).challenge = r.challenge :=
  playAmong_induction (P := (·.challenge = r.challenge))
    (fun _ _ _ hr => by rw [challenge_after, hr]) rfl gs

theorem maxAttempts_playAmong (gs : List (Book × Guess)) :
    (r.playAmong gs).maxAttempts = r.maxAttempts :=
  playAmong_induction (P := (·.maxAttempts = r.maxAttempts))
    (fun _ _ _ hr => by rw [maxAttempts_after, hr]) rfl gs

/-- A round that is over stays as it is under every book. -/
theorem playAmong_of_not_playing (h : r.status ≠ .playing) (gs : List (Book × Guess)) :
    r.playAmong gs = r :=
  playAmong_induction (P := (· = r)) (fun _ _ _ hr => by rw [hr, after_of_not_playing h]) rfl gs

theorem Proper.playAmong (h : r.Proper) (gs : List (Book × Guess)) : (r.playAmong gs).Proper :=
  playAmong_induction (fun _ _ _ hr => hr.after) h gs

/-! ## Attempts that are left -/

theorem Proper.length_add_remaining (h : r.Proper) :
    r.attempts.length + r.remaining = r.maxAttempts := by
  have hwithin := h.within
  rw [remaining]
  omega

theorem remaining_pos (h : r.status = .playing) : 0 < r.remaining := by
  have hlt := (status_eq_playing_iff.1 h).2
  rw [remaining]
  omega

/-! ## What an answer says of the round -/

theorem submit_eq_finished_iff : r.submit b g = .error .finished ↔ r.status ≠ .playing :=
  ⟨not_playing_of_submit, submit_of_not_playing⟩

theorem after_of_submit_error {e : Error} (h : r.submit b g = .error e) : r.after b g = r := by
  rw [after, h]

/-- A valid guess is one more attempt, and one fewer is left. -/
theorem submit_of_valid (h : r.submit b g = .ok (v, next)) (hvalid : v.valid = true) :
    next = r.record g v ∧ next.remaining + 1 = r.remaining := by
  obtain ⟨hplay, -, hnext⟩ := submit_eq_ok_iff.1 h
  rw [if_pos hvalid] at hnext
  have hpos := remaining_pos hplay
  refine ⟨hnext, ?_⟩
  rw [hnext, remaining_record]
  omega

/-- **Guesses are atomic and the end is final.**  Whatever guesses were submitted with whatever
books since the round began, the challenge and the number of attempts offered are those of the
beginning, attempts made and attempts left add up to it, and no attempt but the last one solves the
puzzle.  A further guess is too late exactly if the round is over.  One that is not answered, or is
answered as not valid, leaves the round as it is, and a valid one is appended with its answer, which
uses up one attempt and changes nothing else.  Once the round is won or lost nothing changes it any
more, and every guess under every book is refused for that reason alone. -/
theorem atomic_and_final (c : Challenge) (n : Nat) (guesses : List (Book × Guess)) :
    let r := (new c n).playAmong guesses
    (r.challenge = c ∧ r.maxAttempts = n ∧ r.attempts.length + r.remaining = n ∧
      ∀ a ∈ r.attempts.dropLast, a.verdict.solved = false) ∧
    (∀ b g, (r.submit b g = .error .finished ↔ r.status ≠ .playing) ∧
      (∀ e, r.submit b g = .error e → r.after b g = r) ∧
      ∀ v next, r.submit b g = .ok (v, next) → r.after b g = next ∧
        (v.valid = false → next = r) ∧
        (v.valid = true → next.attempts = r.attempts ++ [⟨g, v⟩] ∧
          next.remaining + 1 = r.remaining ∧ next.challenge = c ∧ next.maxAttempts = n)) ∧
    (r.status = .won ∨ r.status = .lost → ∀ later, r.playAmong later = r ∧
      ∀ b g, (r.playAmong later).submit b g = .error .finished) := by
  intro r
  have hproper : r.Proper := (proper_new c n).playAmong guesses
  have hchallenge : r.challenge = c := challenge_playAmong guesses
  have hmax : r.maxAttempts = n := maxAttempts_playAmong guesses
  refine ⟨⟨hchallenge, hmax, ?_, hproper.unsolved⟩,
    fun b g => ⟨submit_eq_finished_iff, ?_, ?_⟩, ?_⟩
  · rw [hproper.length_add_remaining, hmax]
  · intro e he
    exact after_of_submit_error he
  · intro v next h
    refine ⟨after_of_submit h, eq_of_submit_not_valid h, fun hvalid => ?_⟩
    obtain ⟨rfl, hremaining⟩ := submit_of_valid h hvalid
    exact ⟨rfl, hremaining, hchallenge, hmax⟩
  · intro hover later
    have hover' : r.status ≠ .playing := by
      rcases hover with h | h <;> rw [h] <;> decide
    rw [playAmong_of_not_playing hover' later]
    exact ⟨rfl, fun b g => submit_eq_finished_iff.2 hover'⟩

end Round

end HiddenEquation
