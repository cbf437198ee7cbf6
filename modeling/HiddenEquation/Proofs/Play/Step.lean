import HiddenEquation.Play.Key
import HiddenEquation.Proofs.Round.Submission

/-!
# Steps of the game

Whatever the player does comes down to four kinds of step, `Play.Step`, and a run of keys is a run
of steps.  What a step can do to each part of the game is said here once.

* `Game.submit_cases` : all that submitting the input line can do.
* `Game.press_eq` : a key leaves the game, takes a step, or does nothing.
* `Game.run_eq_steps` : a run of keys is a run of steps.
-/

namespace HiddenEquation.Play

/-- One step of the game. -/
inductive Step where
  | type (c : Char)
  | erase
  | submit
  | newGame (c : Chooser)

/-- The tally once a round stands as it does: a round that is over is counted. -/
def Tally.count (t : Tally) (r : Round) : Tally :=
  match r.status with
  | .playing => t
  | .won => t.addWin r.attempts.length
  | .lost => t.addLoss

namespace Game

variable {g : Game} {b : Book} {d : Dealer}

/-- The game after a step, in whatever mode it is taken. -/
def step (g : Game) (d : Dealer) : Step → Game
  | .type c => g.type c
  | .erase => g.erase
  | .submit => g.submit d.book
  | .newGame c => g.newGame d c

/-- The game after several steps. -/
def steps (g : Game) (d : Dealer) (ss : List Step) : Game := ss.foldl (fun g s => g.step d s) g

@[simp] theorem steps_cons (g : Game) (d : Dealer) (s : Step) (ss : List Step) :
    g.steps d (s :: ss) = (g.step d s).steps d ss := rfl

/-- What one step keeps, any number of steps keeps. -/
theorem steps_induction {P : Game → Prop} (hstep : ∀ g s, P g → P (g.step d s)) (h : P g)
    (ss : List Step) : P (g.steps d ss) := by
  induction ss generalizing g with
  | nil => exact h
  | cons s ss ih => exact ih (hstep g s h)

/-! ## Typing -/

/-- What the keypad types stands in equations. -/
theorem of_keypad?_eq_some {c k : Char} (h : keypad? c = some k) :
    k.isDigit = true ∨ k ∈ ['+', '-', '*', '/'] := by
  unfold keypad? at h
  split at h
  · cases h
    exact Or.inr (by decide)
  · split at h
    · rename_i hk
      cases h
      simpa [or_assoc] using hk
    · cases h

/-- All that typing a character can do. -/
theorem type_cases (g : Game) (c : Char) : g.type c = g ∨ ∃ k, keypad? c = some k ∧
    g.input.length < g.length ∧ g.type c = { g with input := g.input ++ [k] } := by
  unfold type
  cases keypad? c with
  | none => exact Or.inl rfl
  | some k =>
    by_cases h : g.input.length < g.length
    · exact Or.inr ⟨k, rfl, h, if_pos h⟩
    · exact Or.inl (if_neg h)

@[simp] theorem round_type (c : Char) : (g.type c).round = g.round := by
  rcases type_cases g c with h | ⟨k, -, -, h⟩ <;> rw [h]

@[simp] theorem messages_type (c : Char) : (g.type c).messages = g.messages := by
  rcases type_cases g c with h | ⟨k, -, -, h⟩ <;> rw [h]

@[simp] theorem tally_type (c : Char) : (g.type c).tally = g.tally := by
  rcases type_cases g c with h | ⟨k, -, -, h⟩ <;> rw [h]

/-! ## Submitting -/

section

variable (g : Game) (v : Verdict) (next : Round)

@[simp] theorem round_accept : (g.accept v next).round = next := by
  unfold accept
  cases h : next.status <;> rfl

@[simp] theorem input_accept : (g.accept v next).input = [] := by
  unfold accept
  cases h : next.status <;> rfl

theorem mode_accept :
    (g.accept v next).mode = if next.status = .playing then g.mode else .over := by
  unfold accept
  cases h : next.status <;> rfl

theorem tally_accept : (g.accept v next).tally = g.tally.count next := by
  unfold accept Tally.count
  cases h : next.status <;> rfl

end

/-- All that submitting the input line can do: nothing when the round is over, a message, or the
acceptance of a valid guess, which is then recorded. -/
theorem submit_cases (g : Game) (b : Book) :
    (g.round.status ≠ .playing ∧ g.submit b = g) ∨
    (∃ text, g.submit b = g.post .error text) ∨
    (g.round.status = .playing ∧ ∃ v,
      b.check (.ofChars g.input) g.round.challenge.target = .ok v ∧ v.valid = true ∧
      g.submit b = g.accept v (g.round.record (.ofChars g.input) v)) := by
  unfold submit
  by_cases hlen : (Guess.ofChars g.input).length = g.length
  · rw [if_neg (not_not.2 hlen)]
    cases hsubmit : g.round.submit b (.ofChars g.input) with
    | error e =>
      cases e with
      | finished => exact Or.inl ⟨Round.not_playing_of_submit hsubmit, rfl⟩
      | check e => exact Or.inr (Or.inl ⟨_, rfl⟩)
    | ok answer =>
      obtain ⟨v, next⟩ := answer
      obtain ⟨hplay, hcheck, hnext⟩ := Round.submit_eq_ok_iff.1 hsubmit
      dsimp only
      by_cases hvalid : v.valid = true
      · rw [if_pos hvalid] at hnext ⊢
        exact Or.inr (Or.inr ⟨hplay, v, hcheck, hvalid, by rw [hnext]⟩)
      · rw [if_neg hvalid]
        exact Or.inr (Or.inl ⟨_, rfl⟩)
  · rw [if_pos hlen]
    exact Or.inr (Or.inl ⟨_, rfl⟩)

/-- All that submitting does to the round and the tally together: a round in play may go on to
another one, which is then counted. -/
theorem submit_round_tally_cases (g : Game) (b : Book) :
    ((g.submit b).round = g.round ∧ (g.submit b).tally = g.tally) ∨
    (g.round.status = .playing ∧ (g.submit b).tally = g.tally.count (g.submit b).round) := by
  rcases submit_cases g b with ⟨-, hg⟩ | ⟨text, hg⟩ | ⟨hplay, v, -, -, hg⟩
  · rw [hg]
    exact Or.inl ⟨rfl, rfl⟩
  · rw [hg]
    exact Or.inl ⟨rfl, rfl⟩
  · rw [hg, tally_accept, round_accept]
    exact Or.inr ⟨hplay, rfl⟩

/-- A round that is over is not touched by submitting, nor is the tally. -/
theorem submit_of_not_playing (h : g.round.status ≠ .playing) :
    (g.submit b).round = g.round ∧ (g.submit b).tally = g.tally := by
  rcases submit_round_tally_cases g b with hsame | ⟨hplay, -⟩
  · exact hsame
  · exact absurd hplay h

end Game

/-! ## Keys -/

/-- Whether a key ends the game. -/
def Key.leaves : Key → Bool
  | .char 'c' true | .char 'q' _ | .escape => true
  | _ => false

/-- Whether a key asks for a new game. -/
def Key.restarts : Key → Bool
  | .char 'n' _ => true
  | _ => false

/-- The step that a key takes in a mode, with the luck of the draw that it may ask for. -/
def Key.step? (k : Key) (mode : Mode) (c : Chooser) : Option Step :=
  if k.restarts then some (.newGame c)
  else
    match mode, k with
    | .guessing, .char k _ => some (.type k)
    | .guessing, .backspace => some .erase
    | .guessing, .enter => some .submit
    | _, _ => none

namespace Game

/-- All that a key can do: end the game, take a step, or nothing. -/
theorem press_eq (g : Game) (d : Dealer) (c : Chooser) (k : Key) :
    g.press d c k = if k.leaves then none
      else some (match k.step? g.mode c with | some s => g.step d s | none => g) := by
  unfold press
  split
  · rfl
  · rfl
  · rfl
  · rfl
  · rename_i hc hq hescape hn
    have hleaves : k.leaves = false := by
      unfold Key.leaves
      split
      · exact absurd rfl hc
      · rename_i control
        exact absurd rfl (hq control)
      · exact absurd rfl hescape
      · rfl
    have hrestarts : k.restarts = false := by
      unfold Key.restarts
      split
      · rename_i control
        exact absurd rfl (hn control)
      · rfl
    unfold Key.step?
    rw [hleaves, hrestarts]
    cases g.mode <;> cases k <;> rfl

/-- The steps of a run of keys, up to one that ends the game. -/
def stepsOf (g : Game) (d : Dealer) : List (Key × Chooser) → List Step
  | [] => []
  | (k, c) :: rest =>
    if k.leaves then []
    else
      match k.step? g.mode c with
      | some s => s :: (g.step d s).stepsOf d rest
      | none => g.stepsOf d rest

/-- A run of keys is a run of steps. -/
theorem run_eq_steps (g : Game) (d : Dealer) (keys : List (Key × Chooser)) :
    g.run d keys = g.steps d (g.stepsOf d keys) := by
  induction keys generalizing g with
  | nil => rfl
  | cons key rest ih =>
    obtain ⟨k, c⟩ := key
    rw [run, press_eq, stepsOf]
    cases k.leaves with
    | true => rfl
    | false =>
      cases k.step? g.mode c with
      | none => exact ih g
      | some s => exact ih (g.step d s)

end Game

end HiddenEquation.Play
