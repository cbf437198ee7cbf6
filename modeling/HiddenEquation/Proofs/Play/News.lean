import HiddenEquation.Proofs.Play.Step

/-!
# What the player is told

Each step adds messages, and `Game.toldAfter` lists all of them since the latest new game, without
regard to the room on the screen.  The messages in sight are the last ones of that list.

* `Game.messages_step` : the messages that one step adds.
* `Game.messages_steps` : the messages in sight after any number of steps.
-/

namespace HiddenEquation.Play

/-- Posting several messages after some others leaves the last of them all. -/
theorem Messages.foldl_post_last (told news : List Message) :
    news.foldl post (last told) = last (told ++ news) := by
  induction news generalizing told with
  | nil => rw [List.foldl_nil, List.append_nil]
  | cons m news ih => rw [List.foldl_cons, post_last, ih, List.append_assoc, List.singleton_append]

namespace Game

variable {g : Game} {d : Dealer} {told : List Message}

/-- What is told before the first key. -/
def opening : List Message :=
  [⟨.info, "Welcome! Find the equation that equals the target."⟩,
   ⟨.info, "Type digits and + - * / then press Enter"⟩]

/-- What a valid guess adds when it brings the round to `next`. -/
def acceptNews (v : Verdict) (next : Round) : List Message :=
  match next.status with
  | .playing =>
    let f := v.feedback
    [⟨.info,
      s!"{f.count .correct} correct, {f.count .present} present | {next.remaining} attempts left"⟩]
  | .won => [⟨.success, praise next.attempts.length⟩, ⟨.info, offer⟩]
  | .lost => [⟨.error, "Out of attempts!"⟩, ⟨.info, offer⟩]

/-- What submitting the input line adds. -/
def submitNews (g : Game) (b : Book) : List Message :=
  let guess := Guess.ofChars g.input
  if guess.length ≠ g.length then [⟨.error, s!"Equation must be {g.length} characters!"⟩]
  else
    match g.round.submit b guess with
    | .error .finished => []
    | .error (.check e) => [⟨.error, e.message⟩]
    | .ok (v, next) => if v.valid then acceptNews v next else [⟨.error, refusal v⟩]

/-- What has been told since the latest new game once a step is taken, when `told` was before. -/
def toldAfter (g : Game) (d : Dealer) (told : List Message) : Step → List Message
  | .type _ | .erase => told
  | .submit => told ++ g.submitNews d.book
  | .newGame c => [⟨.info, s!"New game started! Target: {(d.deal c).target.toInt}"⟩]

/-- What has been told since the latest new game once several steps are taken. -/
def toldSince (g : Game) (d : Dealer) (told : List Message) : List Step → List Message
  | [] => told
  | s :: ss => (g.step d s).toldSince d (g.toldAfter d told s) ss

theorem messages_start (d : Dealer) (c : Chooser) : (start d c).messages = .last opening := rfl

theorem messages_accept (g : Game) (v : Verdict) (next : Round) :
    (g.accept v next).messages = (acceptNews v next).foldl .post g.messages := by
  unfold accept acceptNews
  cases h : next.status <;> rfl

theorem messages_submit (g : Game) (b : Book) :
    (g.submit b).messages = (g.submitNews b).foldl .post g.messages := by
  unfold submit submitNews
  dsimp only
  by_cases hlen : (Guess.ofChars g.input).length = g.length
  · rw [if_neg (not_not.2 hlen), if_neg (not_not.2 hlen)]
    cases g.round.submit b (.ofChars g.input) with
    | error e => cases e <;> rfl
    | ok answer =>
      obtain ⟨v, next⟩ := answer
      dsimp only
      by_cases hvalid : v.valid = true
      · rw [if_pos hvalid, if_pos hvalid]
        exact messages_accept g v next
      · rw [if_neg hvalid, if_neg hvalid]
        rfl
  · rw [if_pos hlen, if_pos hlen]
    rfl

/-- The messages in sight after a step are the last ones told. -/
theorem messages_step (h : g.messages = .last told) (s : Step) :
    (g.step d s).messages = .last (g.toldAfter d told s) := by
  cases s with
  | type c => rw [step, messages_type, h, toldAfter]
  | erase => exact h
  | submit => rw [step, messages_submit, h, Messages.foldl_post_last, toldAfter]
  | newGame c => rfl

/-- **The messages in sight** after any number of steps are the last ones told. -/
theorem messages_steps (h : g.messages = .last told) (ss : List Step) :
    (g.steps d ss).messages = .last (g.toldSince d told ss) := by
  induction ss generalizing g told with
  | nil => exact h
  | cons s ss ih => exact ih (messages_step h s)

theorem toldAfter_ne_nil (h : told ≠ []) (s : Step) : g.toldAfter d told s ≠ [] := by
  cases s with
  | type c => exact h
  | erase => exact h
  | submit => exact List.append_ne_nil_of_left_ne_nil h _
  | newGame c => exact List.cons_ne_nil _ _

/-- The player has always been told something. -/
theorem toldSince_ne_nil (h : told ≠ []) (ss : List Step) : g.toldSince d told ss ≠ [] := by
  induction ss generalizing g told with
  | nil => exact h
  | cons s ss ih => exact ih (toldAfter_ne_nil h s)

end Game

end HiddenEquation.Play
