import HiddenEquation.Proofs.Round.Submission
import Mathlib.Data.List.Basic

/-!
# The history of a round

A round records the accepted guesses in their order until one of them solves the puzzle or no
attempt is left; whatever else is submitted before, between or afterwards leaves no trace.

* `Round.attempts_play` : what a round in play records of the guesses still to come.
* `Round.play_new_history` : the attempts and the status of a round after any guesses.
-/

namespace HiddenEquation

/-- Taking from a list up to the first element of a kind, but at most so many elements, element
by element. -/
theorem take_min_findIdx_cons {α : Type} (p : α → Bool) (n : Nat) (x : α) (xs : List α) :
    (x :: xs).take (min (n + 1) ((x :: xs).findIdx p + 1)) =
      x :: if p x then [] else xs.take (min n (xs.findIdx p + 1)) := by
  rw [Nat.add_min_add_right, List.take_succ_cons, List.findIdx_cons]
  cases p x with
  | false => rfl
  | true => rw [cond_true, Nat.min_zero, List.take_zero, if_pos rfl]

namespace Round

variable {r : Round} {b : Book}

theorem remaining_record {g : Guess} {v : Verdict} :
    (r.record g v).remaining = r.remaining - 1 := by
  simp only [remaining, maxAttempts_record, attempts_record, List.length_append,
    List.length_singleton]
  omega

/-- An attempt that does not solve the puzzle leaves the round in play if another one is left. -/
theorem status_record_eq_playing_iff {g : Guess} {v : Verdict} (h : r.status = .playing) :
    (r.record g v).status = .playing ↔ v.solved = false ∧ 1 < r.remaining := by
  obtain ⟨hunsolved, hlt⟩ := status_eq_playing_iff.1 h
  rw [status_eq_playing_iff, attempts_record, maxAttempts_record, List.length_append,
    List.length_singleton, remaining]
  constructor
  · rintro ⟨hall, hlt'⟩
    exact ⟨hall ⟨g, v⟩ (by simp), by omega⟩
  · rintro ⟨hsolved, hlt'⟩
    refine ⟨fun a ha => ?_, by omega⟩
    rcases List.mem_append.1 ha with ha | ha
    · exact hunsolved a ha
    · rw [List.mem_singleton.1 ha]
      exact hsolved

/-- **What a round in play records** of the guesses still to come: those that are accepted, up to
the first that solves the puzzle and at most as many as there are attempts left. -/
theorem attempts_play (h : r.status = .playing) (gs : List Guess) :
    (r.play b gs).attempts.map (·.guess) = r.attempts.map (·.guess) ++
      (gs.filter (b.accepts r.challenge.target)).take (min r.remaining
        ((gs.filter (b.accepts r.challenge.target)).findIdx (b.solves r.challenge.target) + 1)) := by
  induction gs generalizing r with
  | nil => simp
  | cons g gs ih =>
    rw [play_cons]
    cases haccepts : b.accepts r.challenge.target g with
    | false =>
      rw [after_of_not_accepts haccepts, List.filter_cons_of_neg (by simp [haccepts])]
      exact ih h
    | true =>
      obtain ⟨v, hv, hvalid⟩ := Book.accepts_eq_true_iff.1 haccepts
      obtain ⟨n, hn⟩ : ∃ n, r.remaining = n + 1 := by
        obtain ⟨-, hlt⟩ := status_eq_playing_iff.1 h
        exact ⟨r.remaining - 1, by unfold remaining; omega⟩
      rw [after_of_valid h hv hvalid, List.filter_cons_of_pos haccepts, hn,
        take_min_findIdx_cons, Book.solves_of_check hv]
      by_cases hplay : (r.record g v).status = .playing
      · -- The round goes on, so what comes after is recorded behind this guess.
        obtain ⟨hsolved, -⟩ := (status_record_eq_playing_iff h).1 hplay
        rw [ih hplay, remaining_record, hn, hsolved]
        simp
      · -- The round is over, because it is won or because this was the last attempt.
        rw [play_of_not_playing hplay]
        rw [status_record_eq_playing_iff h, hn] at hplay
        cases hsolved : v.solved with
        | true => simp
        | false =>
          have hzero : n = 0 := by
            by_contra hne
            exact hplay ⟨hsolved, by omega⟩
          simp [hzero]

/-- **The history of a round.**  Of the accepted guesses the first `k` are recorded in their
order, each with the answer that the book gives, where `k` is the least of the attempts offered,
the number of accepted guesses, and the number of them up to the first that solves the puzzle;
`List.findIdx` is the length of the list where there is none.  The round is won if the last
attempt solves the puzzle, lost if no attempt does and all are used up, and else goes on. -/
theorem play_new_history (b : Book) (c : Challenge) (n : Nat) (guesses : List Guess) :
    let accepted := guesses.filter (b.accepts c.target)
    let k := min (min n accepted.length) (accepted.findIdx (b.solves c.target) + 1)
    let r := (new c n).play b guesses
    r.attempts.map (·.guess) = accepted.take k ∧
    r.attempts.length = k ∧
    (∀ a ∈ r.attempts, b.check a.guess c.target = .ok a.verdict) ∧
    (r.status = .won ↔ ∃ a, r.attempts.getLast? = some a ∧ a.verdict.solved = true) ∧
    (r.status = .lost ↔ (∀ a ∈ r.attempts, a.verdict.solved = false) ∧ k = n) ∧
    (r.status = .playing ↔
      ¬(∃ a, r.attempts.getLast? = some a ∧ a.verdict.solved = true) ∧
      ¬((∀ a ∈ r.attempts, a.verdict.solved = false) ∧ k = n)) := by
  intro accepted k r
  have hproper : r.Proper := (proper_new c n).play guesses
  have hanswered : r.AnsweredBy b := (answeredBy_new b c n).play guesses
  have hguesses : r.attempts.map (·.guess) = accepted.take k := by
    by_cases hplay : (new c n).status = .playing
    · rw [attempts_play hplay guesses, attempts_new, List.map_nil, List.nil_append]
      show accepted.take (min n (accepted.findIdx (b.solves c.target) + 1)) = accepted.take k
      rw [List.take_eq_take_iff]
      omega
    · have hzero : n = 0 := by
        simpa [status_eq_playing_iff] using hplay
      rw [show r = new c n from play_of_not_playing hplay guesses]
      simp [k, hzero]
  have hlength : r.attempts.length = k := by
    rw [← List.length_map (·.guess), hguesses, List.length_take]
    omega
  have hmax : r.maxAttempts = n := maxAttempts_play guesses
  have hlost := hproper.status_eq_lost_iff
  rw [hlength, hmax] at hlost
  refine ⟨hguesses, hlength, ?_, hproper.status_eq_won_iff, hlost, ?_⟩
  · intro a ha
    have hcheck := hanswered a ha
    rwa [show r.challenge = c from challenge_play guesses] at hcheck
  · rw [← hproper.status_eq_won_iff, ← hlost]
    cases r.status <;> simp

end Round

end HiddenEquation
