import HiddenEquation.Draw

/-!
# A round of play

A round offers a number of attempts at one challenge.  Only a valid guess uses one up: a
guess that is refused, or that cannot be checked at all, leaves the round as it was.  Once
the round is won or lost no guess is looked at any more.
-/

namespace HiddenEquation

/-- A valid guess and the answer to it. -/
structure Attempt where
  guess : Guess
  verdict : Verdict

/-- A challenge, the attempts at it so far, and how many there may be. -/
structure Round where
  challenge : Challenge
  attempts : List Attempt
  maxAttempts : Nat

namespace Round

/-- Where a round stands. -/
inductive Status where
  | playing
  | won
  | lost
deriving DecidableEq, Repr

/-- Why a guess is not answered. -/
inductive Error where
  | finished
  | check (e : CheckError)
deriving DecidableEq

/-- The wording of an error. -/
def Error.message : Error → String
  | .finished => "The round is over"
  | .check e => e.message

/-- The attempts of a round where no other number is asked for. -/
def defaultAttempts : Nat := 6

/-- A round without attempts so far. -/
def new (c : Challenge) (maxAttempts : Nat) : Round := ⟨c, [], maxAttempts⟩

/-- A round with the usual number of attempts. -/
def start (c : Challenge) : Round := new c defaultAttempts

/-- The attempts that are left. -/
def remaining (r : Round) : Nat := r.maxAttempts - r.attempts.length

/-- Won as soon as an attempt solves the puzzle, lost when none is left. -/
def status (r : Round) : Status :=
  if r.attempts.any fun a => a.verdict.solved then .won
  else if r.maxAttempts ≤ r.attempts.length then .lost
  else .playing

/-- The round with one more attempt. -/
def record (r : Round) (g : Guess) (v : Verdict) : Round :=
  { r with attempts := r.attempts ++ [⟨g, v⟩] }

/-- Answers a guess.  A valid one is recorded. -/
def submit (r : Round) (b : Book) (g : Guess) : Except Error (Verdict × Round) :=
  if r.status ≠ .playing then .error .finished
  else
    match b.check g r.challenge.target with
    | .error e => .error (.check e)
    | .ok v => .ok (v, if v.valid then r.record g v else r)

/-- The round after a guess, whether it is answered or not. -/
def after (r : Round) (b : Book) (g : Guess) : Round :=
  match r.submit b g with
  | .ok (_, next) => next
  | .error _ => r

/-- The round after several guesses. -/
def play (r : Round) (b : Book) (guesses : List Guess) : Round :=
  guesses.foldl (fun r g => r.after b g) r

@[simp] theorem challenge_new (c : Challenge) (n : Nat) : (new c n).challenge = c := rfl

@[simp] theorem attempts_new (c : Challenge) (n : Nat) : (new c n).attempts = [] := rfl

@[simp] theorem maxAttempts_new (c : Challenge) (n : Nat) : (new c n).maxAttempts = n := rfl

@[simp] theorem challenge_record (r : Round) (g : Guess) (v : Verdict) :
    (r.record g v).challenge = r.challenge := rfl

@[simp] theorem maxAttempts_record (r : Round) (g : Guess) (v : Verdict) :
    (r.record g v).maxAttempts = r.maxAttempts := rfl

@[simp] theorem attempts_record (r : Round) (g : Guess) (v : Verdict) :
    (r.record g v).attempts = r.attempts ++ [⟨g, v⟩] := rfl

/-- A refused guess changes nothing. -/
theorem eq_of_submit_not_valid {r next : Round} {b : Book} {g : Guess} {v : Verdict}
    (h : r.submit b g = .ok (v, next)) (hv : v.valid = false) : next = r := by
  unfold submit at h
  split at h
  · cases h
  · split at h
    · cases h
    · cases h
      simp [hv]

end Round

end HiddenEquation
