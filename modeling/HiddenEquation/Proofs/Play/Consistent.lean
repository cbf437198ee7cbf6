import HiddenEquation.Proofs.Play.News

/-!
# A game in play is consistent

The mode, the round, the input line and the messages are kept apart and changed one by one, yet
they agree in every game that can come about.  `Game.Consistent` says how; every step keeps it, in
whatever mode it is taken, and so does every run of keys.

* `Game.Consistent.step` : a step keeps a game consistent.
* `Game.Consistent.exists_submit_eq_ok` : a full input line is always answered.
* `Game.run_consistent` : what is true of a game after any keys.
-/

namespace HiddenEquation.Play.Game

/-- The parts of a game agree with each other and with the book that its rounds come from. -/
structure Consistent (d : Dealer) (g : Game) : Prop where
  /-- The input line holds what stands in equations. -/
  alphabet : ∀ c ∈ g.input, c.isDigit = true ∨ c ∈ ['+', '-', '*', '/']
  /-- The input line is not longer than an equation. -/
  fits : g.input.length ≤ g.length
  /-- Only while the round goes on may equations be proposed. -/
  over_iff : g.mode = .over ↔ g.round.status ≠ .playing
  /-- The round is about a puzzle of the book. -/
  described : ∃ p ∈ d.book.puzzles, g.round.challenge = .ofPuzzle p d.book.length
  proper : g.round.Proper
  answered : g.round.AnsweredBy d.book
  offered : g.round.maxAttempts = Round.defaultAttempts

namespace Consistent

variable {d : Dealer} {g : Game}

/-! ## Steps -/

/-- Messages and tally do not matter. -/
theorem of_eq (h : Consistent d g) {g' : Game} (hround : g'.round = g.round)
    (hinput : g'.input = g.input) (hmode : g'.mode = g.mode) : Consistent d g' := by
  obtain ⟨round, input, mode, messages, tally⟩ := g'
  dsimp only at hround hinput hmode
  subst hround hinput hmode
  exact ⟨h.alphabet, h.fits, h.over_iff, h.described, h.proper, h.answered, h.offered⟩

theorem start (d : Dealer) (c : Chooser) : Consistent d (Game.start d c) where
  alphabet := fun _ hc => absurd hc List.not_mem_nil
  fits := Nat.zero_le _
  over_iff := iff_of_false Mode.noConfusion (not_not.2 (Round.status_start _))
  described := ⟨d.book.draw d.difficulty c, d.book.draw_mem d.difficulty c, rfl⟩
  proper := Round.proper_new _ _
  answered := Round.answeredBy_new _ _ _
  offered := rfl

/-- A new game differs from the first one in messages and tally only. -/
theorem newGame (g : Game) (d : Dealer) (c : Chooser) : Consistent d (g.newGame d c) :=
  (start d c).of_eq rfl rfl rfl

theorem post (h : Consistent d g) (tone : Tone) (text : String) :
    Consistent d (g.post tone text) := h.of_eq rfl rfl rfl

/-- Nothing but the input line depends on what stands in the input line. -/
theorem withInput (h : Consistent d g) {s : List Char}
    (halphabet : ∀ c ∈ s, c.isDigit = true ∨ c ∈ ['+', '-', '*', '/'])
    (hfits : s.length ≤ g.length) : Consistent d { g with input := s } :=
  ⟨halphabet, hfits, h.over_iff, h.described, h.proper, h.answered, h.offered⟩

theorem type (h : Consistent d g) (c : Char) : Consistent d (g.type c) := by
  rcases type_cases g c with hg | ⟨k, hk, hroom, hg⟩
  · rwa [hg]
  · rw [hg]
    refine h.withInput ?_ ?_
    · intro x hx
      rcases List.mem_append.1 hx with hx | hx
      · exact h.alphabet x hx
      · rw [List.mem_singleton.1 hx]
        exact of_keypad?_eq_some hk
    · rw [List.length_append, List.length_singleton]
      exact hroom

theorem typeAll (h : Consistent d g) (s : List Char) : Consistent d (g.typeAll s) := by
  induction s generalizing g with
  | nil => exact h
  | cons c s ih => exact ih (h.type c)

theorem erase (h : Consistent d g) : Consistent d g.erase := by
  refine h.withInput (fun c hc => h.alphabet c (List.dropLast_subset _ hc)) ?_
  have hfits := h.fits
  rw [List.length_dropLast]
  omega

theorem clear (h : Consistent d g) : Consistent d g.clear :=
  h.withInput (fun _ hc => absurd hc List.not_mem_nil) (Nat.zero_le _)

/-- A valid guess ends the guessing exactly if it ends the round. -/
theorem accept (h : Consistent d g) {guess : Guess} {v : Verdict}
    (hplay : g.round.status = .playing)
    (hv : d.book.check guess g.round.challenge.target = .ok v) (hvalid : v.valid = true) :
    Consistent d (g.accept v (g.round.record guess v)) where
  alphabet := by simp
  fits := by simp
  over_iff := by
    have hmode : g.mode ≠ .over := fun hover => h.over_iff.1 hover hplay
    rw [mode_accept, round_accept]
    split
    · rename_i hstatus
      exact iff_of_false hmode (not_not.2 hstatus)
    · rename_i hstatus
      exact iff_of_true rfl hstatus
  described := by
    rw [round_accept]
    exact h.described
  proper := by
    rw [round_accept]
    exact h.proper.record hplay hvalid
  answered := by
    rw [round_accept]
    exact h.answered.record hv
  offered := by
    rw [round_accept]
    exact h.offered

theorem submit (h : Consistent d g) : Consistent d (g.submit d.book) := by
  rcases submit_cases g d.book with ⟨-, hg⟩ | ⟨text, hg⟩ | ⟨hplay, v, hv, hvalid, hg⟩
  · rwa [hg]
  · rw [hg]
    exact h.post .error text
  · rw [hg]
    exact h.accept hplay hv hvalid

/-- A step keeps a game consistent, in whatever mode it is taken. -/
theorem step (h : Consistent d g) (s : Step) : Consistent d (g.step d s) := by
  cases s with
  | type c => exact h.type c
  | erase => exact h.erase
  | submit => exact h.submit
  | newGame c => exact newGame g d c

theorem steps (h : Consistent d g) (ss : List Step) : Consistent d (g.steps d ss) :=
  steps_induction (fun _ s hg => hg.step s) h ss

/-! ## What consistency gives -/

theorem length_eq (h : Consistent d g) : g.length = d.book.length := by
  obtain ⟨p, -, hp⟩ := h.described
  rw [Game.length, hp]
  rfl

theorem length_guess (h : Consistent d g) {a : Attempt} (ha : a ∈ g.round.attempts) :
    a.guess.length = g.length := by
  rw [h.length_eq]
  exact Book.length_of_check (h.answered a ha)

theorem length_attempts_le (h : Consistent d g) :
    g.round.attempts.length ≤ Round.defaultAttempts := by
  rw [← h.offered]
  exact h.proper.within

theorem playing_of_guessing (h : Consistent d g) (hmode : g.mode = .guessing) :
    g.round.status = .playing := by
  by_contra hstatus
  rw [h.over_iff.2 hstatus] at hmode
  cases hmode

/-- A full input line is always answered: the round goes on, its target is known, and the length
is right. -/
theorem exists_submit_eq_ok (h : Consistent d g) (hmode : g.mode = .guessing)
    (hfull : g.input.length = g.length) :
    ∃ v next, g.round.submit d.book (.ofChars g.input) = .ok (v, next) := by
  obtain ⟨p, hmem, hp⟩ := h.described
  have htarget : g.round.challenge.target = p.target := by
    rw [hp]
    rfl
  have hlen : (Guess.ofChars g.input).length = d.book.length := by
    rw [Guess.length_ofChars, hfull, h.length_eq]
  obtain ⟨v, hv⟩ := Book.exists_check_eq_ok hmem hlen
  rw [← htarget] at hv
  exact ⟨v, _, Round.submit_eq_ok_iff.2 ⟨h.playing_of_guessing hmode, hv, rfl⟩⟩

end Consistent

/-- When the round is over, only leaving and a new game are left. -/
theorem press_of_over {g : Game} (d : Dealer) (c : Chooser) {k : Key} (hmode : g.mode = .over)
    (hleaves : k.leaves = false) (hrestarts : k.restarts = false) : g.press d c k = some g := by
  rw [press_eq, hleaves, hmode]
  unfold Key.step?
  rw [hrestarts]
  rfl

/-- **A game after any keys.**  The input line holds characters of equations and not too many of
them; equations are proposed exactly while the round goes on; the round is about a puzzle of the
book, with at most six attempts of the right length; some messages are in sight, the last five of
those told since the latest new game; a full input line is answered without an error; and when
the round is over a key that neither leaves nor restarts changes nothing. -/
theorem run_consistent (d : Dealer) (first : Chooser) (keys : List (Key × Chooser)) :
    let g := (start d first).run d keys
    let told := (start d first).toldSince d opening ((start d first).stepsOf d keys)
    (∀ c ∈ g.input, c.isDigit = true ∨ c ∈ ['+', '-', '*', '/']) ∧
    g.input.length ≤ g.length ∧
    (g.mode = .over ↔ g.round.status ≠ .playing) ∧
    (∃ p ∈ d.book.puzzles, g.round.challenge = .ofPuzzle p d.book.length) ∧
    g.round.attempts.length ≤ 6 ∧
    (∀ a ∈ g.round.attempts, a.guess.length = g.length) ∧
    g.messages.shown ≠ [] ∧
    g.messages.shown = told.drop (told.length - 5) ∧
    (g.mode = .guessing → g.input.length = g.length →
      ∃ v next, g.round.submit d.book (.ofChars g.input) = .ok (v, next)) ∧
    (∀ k c, g.mode = .over → k.leaves = false → k.restarts = false → g.press d c k = some g) := by
  intro g told
  have hsteps : g = (start d first).steps d ((start d first).stepsOf d keys) :=
    run_eq_steps (start d first) d keys
  have h : Consistent d g := by
    rw [hsteps]
    exact (Consistent.start d first).steps _
  have hmessages : g.messages = .last told := by
    rw [hsteps]
    exact messages_steps (messages_start d first) _
  have htold : told ≠ [] := toldSince_ne_nil (List.cons_ne_nil _ _) _
  have hshown : g.messages.shown = told.drop (told.length - 5) := by
    rw [hmessages]
    exact Messages.shown_last told
  refine ⟨h.alphabet, h.fits, h.over_iff, h.described, h.length_attempts_le,
    fun a ha => h.length_guess ha, ?_, hshown, h.exists_submit_eq_ok, fun k c => press_of_over d c⟩
  rw [hshown, ne_eq, List.drop_eq_nil_iff]
  have hpos := List.length_pos_iff.2 htold
  omega

end HiddenEquation.Play.Game
