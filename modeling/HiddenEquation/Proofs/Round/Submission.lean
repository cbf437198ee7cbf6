import HiddenEquation.Proofs.Check.Contract
import HiddenEquation.Round

/-!
# What one guess does to a round

`Round.submit_eq_ok_iff` says all that an answer to a guess says, and `Round.after_cases` all that
a guess can do to a round: either it is recorded or nothing changes.  From these follow the
conditions that every round in play meets, `Round.Proper` and `Round.AnsweredBy`, for one guess
and then for any number of them.

* `Book.exists_check_eq_ok` : a guess of the right length at a known target is always answered.
* `Round.Proper.play` : no attempt but the last one solves the puzzle, and none is one too many.
* `Round.AnsweredBy.play` : an attempt keeps the answer that the book gives.
-/

namespace HiddenEquation

/-! ## Looking a puzzle up and checking against it -/

namespace Book

variable {b : Book} {g : Guess} {t : Int64} {p : Puzzle} {v : Verdict}

theorem check_eq_ok_iff :
    b.check g t = .ok v ↔ ∃ p, b.get? t = some p ∧ checkGuess g t p.solution = .ok v := by
  unfold check find
  cases b.get? t with
  | none => simp
  | some p =>
    simp only [Option.some.injEq, exists_eq_left']
    cases checkGuess g t p.solution with
    | error m => simp
    | ok w => simp only [Except.ok.injEq]

/-- A puzzle of the book is the one that its target leads to. -/
theorem check_eq_ok_iff_of_mem (h : p ∈ b.puzzles) :
    b.check g p.target = .ok v ↔ checkGuess g p.target p.solution = .ok v := by
  rw [check_eq_ok_iff, get?_of_mem h]
  simp

/-- A guess of the right length at a known target is always answered. -/
theorem exists_check_eq_ok (h : p ∈ b.puzzles) (hlen : g.length = b.length) :
    ∃ v, b.check g p.target = .ok v := by
  rw [← b.sized p h] at hlen
  obtain ⟨v, hv, -⟩ := exists_checkGuess_eq_ok p.target hlen
  exact ⟨v, (check_eq_ok_iff_of_mem h).2 hv⟩

/-- Only guesses of the right length are answered. -/
theorem length_of_check (h : b.check g t = .ok v) : g.length = b.length := by
  obtain ⟨p, hp, hv⟩ := check_eq_ok_iff.1 h
  obtain ⟨hmem, -⟩ := mem_of_get? hp
  rw [← b.sized p hmem]
  exact (kind_of_checkGuess hv).1

/-- Whether a guess at a target uses up an attempt. -/
def accepts (b : Book) (t : Int64) (g : Guess) : Bool :=
  match b.check g t with
  | .ok v => v.valid
  | .error _ => false

/-- Whether a guess solves the puzzle with a target. -/
def solves (b : Book) (t : Int64) (g : Guess) : Bool :=
  match b.check g t with
  | .ok v => v.solved
  | .error _ => false

theorem accepts_eq_true_iff : b.accepts t g = true ↔ ∃ v, b.check g t = .ok v ∧ v.valid = true := by
  unfold accepts
  split
  · rename_i v hv
    simp [hv]
  · rename_i e he
    simp [he]

theorem accepts_of_check (h : b.check g t = .ok v) : b.accepts t g = v.valid := by
  rw [accepts, h]

theorem solves_of_check (h : b.check g t = .ok v) : b.solves t g = v.solved := by
  rw [solves, h]

end Book

namespace Round

variable {r next : Round} {b : Book} {g : Guess} {v : Verdict}

/-! ## Where a round stands -/

theorem status_eq_won_iff : r.status = .won ↔ ∃ a ∈ r.attempts, a.verdict.solved = true := by
  rw [← List.any_eq_true (p := fun a : Attempt => a.verdict.solved)]
  unfold status
  split
  · rename_i h
    exact iff_of_true rfl h
  · rename_i h
    refine iff_of_false ?_ h
    split <;> decide

theorem not_any_solved_iff :
    ¬(r.attempts.any fun a => a.verdict.solved) = true ↔
      ∀ a ∈ r.attempts, a.verdict.solved = false := by
  rw [Bool.not_eq_true, List.any_eq_false]
  simp only [Bool.not_eq_true]

theorem status_eq_lost_iff : r.status = .lost ↔
    (∀ a ∈ r.attempts, a.verdict.solved = false) ∧ r.maxAttempts ≤ r.attempts.length := by
  rw [← not_any_solved_iff]
  unfold status
  split
  · rename_i h
    exact iff_of_false (by decide) fun h' => h'.1 h
  · rename_i h
    split
    · rename_i hle
      exact iff_of_true rfl ⟨h, hle⟩
    · rename_i hle
      exact iff_of_false (by decide) fun h' => hle h'.2

theorem status_eq_playing_iff : r.status = .playing ↔
    (∀ a ∈ r.attempts, a.verdict.solved = false) ∧ r.attempts.length < r.maxAttempts := by
  rw [← not_any_solved_iff]
  unfold status
  split
  · rename_i h
    exact iff_of_false (by decide) fun h' => h'.1 h
  · rename_i h
    split
    · rename_i hle
      exact iff_of_false (by decide) fun h' => Nat.not_lt_of_le hle h'.2
    · rename_i hle
      exact iff_of_true rfl ⟨h, Nat.lt_of_not_le hle⟩

/-- A round with an attempt to offer is in play from the start. -/
theorem status_new_succ (c : Challenge) (n : Nat) : (new c (n + 1)).status = .playing :=
  status_eq_playing_iff.2 ⟨by simp, Nat.succ_pos n⟩

theorem status_start (c : Challenge) : (start c).status = .playing := status_new_succ c 5

/-! ## One guess -/

theorem submit_eq_ok_iff : r.submit b g = .ok (v, next) ↔
    r.status = .playing ∧ b.check g r.challenge.target = .ok v ∧
      next = if v.valid then r.record g v else r := by
  unfold submit
  by_cases h : r.status = .playing
  · rw [if_neg (not_not.2 h)]
    cases b.check g r.challenge.target with
    | error e => simp
    | ok w =>
      simp only [h, true_and, Except.ok.injEq, Prod.mk.injEq]
      constructor
      · rintro ⟨rfl, hnext⟩
        exact ⟨rfl, hnext.symm⟩
      · rintro ⟨rfl, hnext⟩
        exact ⟨rfl, hnext.symm⟩
  · rw [if_pos h]
    simp [h]

theorem submit_of_not_playing (h : r.status ≠ .playing) : r.submit b g = .error .finished :=
  if_pos h

theorem submit_of_check_error {e : CheckError} (h : r.status = .playing)
    (he : b.check g r.challenge.target = .error e) : r.submit b g = .error (.check e) := by
  rw [submit, if_neg (not_not.2 h), he]

/-- Only a round that is over gives no answer because of where it stands. -/
theorem not_playing_of_submit (h : r.submit b g = .error .finished) : r.status ≠ .playing := by
  intro hplay
  cases hcheck : b.check g r.challenge.target with
  | error e =>
    rw [submit_of_check_error hplay hcheck] at h
    cases h
  | ok v =>
    rw [submit_eq_ok_iff.2 ⟨hplay, hcheck, rfl⟩] at h
    cases h

theorem after_of_submit (h : r.submit b g = .ok (v, next)) : r.after b g = next := by
  rw [after, h]

theorem after_of_not_playing (h : r.status ≠ .playing) : r.after b g = r := by
  rw [after, submit_of_not_playing h]

/-- A valid guess is recorded while the round goes on. -/
theorem after_of_valid (h : r.status = .playing) (hv : b.check g r.challenge.target = .ok v)
    (hvalid : v.valid = true) : r.after b g = r.record g v :=
  after_of_submit (submit_eq_ok_iff.2 ⟨h, hv, by rw [if_pos hvalid]⟩)

/-- Any other guess changes nothing. -/
theorem after_of_not_accepts (h : b.accepts r.challenge.target g = false) : r.after b g = r := by
  by_cases hplay : r.status = .playing
  · cases hcheck : b.check g r.challenge.target with
    | error e => rw [after, submit_of_check_error hplay hcheck]
    | ok v =>
      rw [Book.accepts_of_check hcheck] at h
      exact after_of_submit (submit_eq_ok_iff.2 ⟨hplay, hcheck, by simp [h]⟩)
  · exact after_of_not_playing hplay

/-- All that a guess can do to a round. -/
theorem after_cases (r : Round) (b : Book) (g : Guess) :
    r.after b g = r ∨ r.status = .playing ∧ ∃ v, b.check g r.challenge.target = .ok v ∧
      v.valid = true ∧ r.after b g = r.record g v := by
  by_cases hplay : r.status = .playing
  · cases haccepts : b.accepts r.challenge.target g with
    | false => exact Or.inl (after_of_not_accepts haccepts)
    | true =>
      obtain ⟨v, hv, hvalid⟩ := Book.accepts_eq_true_iff.1 haccepts
      exact Or.inr ⟨hplay, v, hv, hvalid, after_of_valid hplay hv hvalid⟩
  · exact Or.inl (after_of_not_playing hplay)

@[simp] theorem challenge_after : (r.after b g).challenge = r.challenge := by
  rcases after_cases r b g with h | ⟨-, v, -, -, h⟩
  · rw [h]
  · rw [h, challenge_record]

@[simp] theorem maxAttempts_after : (r.after b g).maxAttempts = r.maxAttempts := by
  rcases after_cases r b g with h | ⟨-, v, -, -, h⟩
  · rw [h]
  · rw [h, maxAttempts_record]

/-! ## Any number of guesses -/

@[simp] theorem play_nil (r : Round) (b : Book) : r.play b [] = r := rfl

@[simp] theorem play_cons (r : Round) (b : Book) (g : Guess) (gs : List Guess) :
    r.play b (g :: gs) = (r.after b g).play b gs := rfl

/-- What one guess keeps, any number of guesses keeps. -/
theorem play_induction {P : Round → Prop} (hstep : ∀ r g, P r → P (r.after b g)) (h : P r)
    (gs : List Guess) : P (r.play b gs) := by
  induction gs generalizing r with
  | nil => exact h
  | cons g gs ih => exact ih (hstep r g h)

/-- A round that is over stays as it is. -/
theorem play_of_not_playing (h : r.status ≠ .playing) (gs : List Guess) : r.play b gs = r :=
  play_induction (P := (· = r)) (fun _ _ hr => by rw [hr, after_of_not_playing h]) rfl gs

@[simp] theorem challenge_play (gs : List Guess) : (r.play b gs).challenge = r.challenge :=
  play_induction (P := (·.challenge = r.challenge)) (fun _ _ hr => by rw [challenge_after, hr])
    rfl gs

@[simp] theorem maxAttempts_play (gs : List Guess) :
    (r.play b gs).maxAttempts = r.maxAttempts :=
  play_induction (P := (·.maxAttempts = r.maxAttempts))
    (fun _ _ hr => by rw [maxAttempts_after, hr]) rfl gs

/-! ## What every round in play is like -/

/-- Attempts are valid guesses, there are not too many of them, and the round went on after
each but the last. -/
structure Proper (r : Round) : Prop where
  valid : ∀ a ∈ r.attempts, a.verdict.valid = true
  unsolved : ∀ a ∈ r.attempts.dropLast, a.verdict.solved = false
  within : r.attempts.length ≤ r.maxAttempts

/-- The attempts have the answers that a book gives. -/
def AnsweredBy (r : Round) (b : Book) : Prop :=
  ∀ a ∈ r.attempts, b.check a.guess r.challenge.target = .ok a.verdict

theorem proper_new (c : Challenge) (n : Nat) : (new c n).Proper :=
  ⟨by simp, by simp, Nat.zero_le n⟩

theorem Proper.record (h : r.Proper) (hplay : r.status = .playing) (hvalid : v.valid = true) :
    (r.record g v).Proper := by
  obtain ⟨hunsolved, hlt⟩ := status_eq_playing_iff.1 hplay
  refine ⟨?_, ?_, ?_⟩
  · intro a ha
    rcases List.mem_append.1 ha with ha | ha
    · exact h.valid a ha
    · rw [List.mem_singleton.1 ha]
      exact hvalid
  · rw [attempts_record, List.dropLast_concat]
    exact hunsolved
  · rw [attempts_record, List.length_append, List.length_singleton]
    exact hlt

theorem Proper.after (h : r.Proper) : (r.after b g).Proper := by
  rcases after_cases r b g with hr | ⟨hplay, v, -, hvalid, hr⟩
  · rwa [hr]
  · rw [hr]
    exact h.record hplay hvalid

theorem Proper.play (h : r.Proper) (gs : List Guess) : (r.play b gs).Proper :=
  play_induction (fun _ _ hr => hr.after) h gs

theorem answeredBy_new (b : Book) (c : Challenge) (n : Nat) : (new c n).AnsweredBy b := by
  simp [AnsweredBy]

theorem AnsweredBy.record (h : r.AnsweredBy b) (hv : b.check g r.challenge.target = .ok v) :
    (r.record g v).AnsweredBy b := by
  intro a ha
  rcases List.mem_append.1 ha with ha | ha
  · exact h a ha
  · rw [List.mem_singleton.1 ha]
    exact hv

theorem AnsweredBy.after (h : r.AnsweredBy b) : (r.after b g).AnsweredBy b := by
  rcases after_cases r b g with hr | ⟨-, v, hv, -, hr⟩
  · rwa [hr]
  · rw [hr]
    exact h.record hv

theorem AnsweredBy.play (h : r.AnsweredBy b) (gs : List Guess) : (r.play b gs).AnsweredBy b :=
  play_induction (P := (·.AnsweredBy b)) (fun _ _ hr => AnsweredBy.after hr) h gs

/-- A round is won by its last attempt. -/
theorem Proper.status_eq_won_iff (h : r.Proper) : r.status = .won ↔
    ∃ a, r.attempts.getLast? = some a ∧ a.verdict.solved = true := by
  rw [Round.status_eq_won_iff]
  constructor
  · rintro ⟨a, ha, hsolved⟩
    have hne : r.attempts ≠ [] := List.ne_nil_of_mem ha
    refine ⟨r.attempts.getLast hne, List.getLast?_eq_some_getLast hne, ?_⟩
    rw [← List.dropLast_append_getLast hne] at ha
    rcases List.mem_append.1 ha with ha | ha
    · rw [h.unsolved a ha] at hsolved
      cases hsolved
    · rwa [← List.mem_singleton.1 ha]
  · rintro ⟨a, ha, hsolved⟩
    exact ⟨a, List.mem_of_getLast? ha, hsolved⟩

/-- A round is lost when its attempts are used up and none solves the puzzle. -/
theorem Proper.status_eq_lost_iff (h : r.Proper) : r.status = .lost ↔
    (∀ a ∈ r.attempts, a.verdict.solved = false) ∧ r.attempts.length = r.maxAttempts := by
  rw [Round.status_eq_lost_iff]
  have hwithin := h.within
  exact and_congr_right fun _ => ⟨fun hle => by omega, fun heq => by omega⟩

end Round

end HiddenEquation
