import HiddenEquation.Proofs.Book.Alike
import HiddenEquation.Proofs.Dialogue.Course
import HiddenEquation.Proofs.Expr.Numeral

/-!
# What a player learns of the solution

Nothing but the feedback on guesses that have the target's value.  Two books that differ in their
solutions only are played side by side, with the same luck and the same guesses.  As long as that
feedback does not differ, neither does anything that a player gets to see.

* `Round.sights` : what is seen in a run of draws and guesses.
* `Book.Alike.sights_eq`, `Book.Alike.converse_eq` : a run and a conversation show the same.
* `Book.Alike.nothing_else_learned` : both, and the check of a guess that misses the target.
-/

namespace HiddenEquation

/-! ## Runs of draws and guesses -/

namespace Round

/-- What a player does: ask for a new challenge, or guess. -/
inductive Move where
  | draw (difficulty : Option UInt8) (luck : Chooser) (maxAttempts : Nat)
  | guess (g : Guess)

/-- What a player gets to see of a move: the answer if it was a guess, and the round that follows
with all that is recorded of it. -/
structure Sight where
  answer : Option (Except Error Verdict)
  status : Status
  round : Round

/-- One move in a round. -/
def move (b : Book) (r : Round) : Move → Sight
  | .draw difficulty luck maxAttempts =>
    let next := new (b.challenge difficulty luck) maxAttempts
    ⟨none, next.status, next⟩
  | .guess g =>
    let next := r.after b g
    ⟨some ((r.submit b g).map Prod.fst), next.status, next⟩

/-- All that is seen in a run of moves. -/
def sights (b : Book) : Round → List Move → List Sight
  | _, [] => []
  | r, m :: ms => r.move b m :: sights b (r.move b m).round ms

/-- The guesses that are submitted in a run of moves, each with the target that it is for. -/
def submitted (b : Book) : Round → List Move → List (Int64 × Guess)
  | _, [] => []
  | r, .draw difficulty luck maxAttempts :: ms =>
    submitted b (r.move b (.draw difficulty luck maxAttempts)).round ms
  | r, .guess g :: ms => (r.challenge.target, g) :: submitted b (r.move b (.guess g)).round ms

/-- Guesses alone are all submitted for the target of the round. -/
theorem submitted_map_guess (b : Book) (r : Round) (gs : List Guess) :
    submitted b r (gs.map .guess) = gs.map fun g => (r.challenge.target, g) := by
  induction gs generalizing r with
  | nil => rfl
  | cons g gs ih =>
    rw [List.map_cons, submitted, ih, List.map_cons]
    show _ :: gs.map (fun g' => ((r.after b g).challenge.target, g')) = _
    rw [challenge_after]

end Round

/-! ## Conversations -/

namespace Dialogue

/-- The guess that a line makes, if it is asked for one and is not a command. -/
def guess? (s : State) (line : List Char) : Option Guess :=
  let input := Text.trim line
  match s.prompt with
  | .guess => if isQuit input || isNew input then none else some (.ofChars input)
  | .again => none

/-- The guesses that are submitted in a conversation, each with the target that it is for. -/
def submitted (d : Dealer) (s : State) : List (InputLine × Chooser) → List (Int64 × Guess)
  | [] => []
  | (none, _) :: _ => []
  | (some line, c) :: rest =>
    ((guess? s line).map fun g => (s.round.challenge.target, g)).toList ++
      match (respond d c s line).next with
      | none => []
      | some next => submitted d next rest

theorem guess?_eq_some_iff {s : State} {line : List Char} {g : Guess} : guess? s line = some g ↔
    s.prompt = .guess ∧ ¬Spells line ["quit", "q", "exit", "new", "n"] ∧
      g = .ofChars (Text.trim line) := by
  have hcommand : (isQuit (Text.trim line) || isNew (Text.trim line)) = true ↔
      Spells line ["quit", "q", "exit", "new", "n"] := by
    rw [Bool.or_eq_true, isQuit, isNew, isWord_trim_iff, isWord_trim_iff, spells_command_iff]
  obtain ⟨r, prompt⟩ := s
  cases prompt with
  | guess =>
    rw [guess?, ← hcommand]
    dsimp only
    split
    · rename_i hspells
      simp [hspells]
    · rename_i hspells
      simp [hspells, eq_comm]
  | again => simp [guess?]

theorem respond_of_guess? {s : State} {line : List Char} {g : Guess} (h : guess? s line = some g)
    (d : Dealer) (c : Chooser) : respond d c s line = answerGuess d s.round g := by
  obtain ⟨hprompt, hcommand, rfl⟩ := guess?_eq_some_iff.1 h
  exact respond_of_not_spells hprompt hcommand

/-- A line that is no guess starts a new round or ends the conversation. -/
theorem respond_of_guess?_none {s : State} {line : List Char} (h : guess? s line = none)
    (d : Dealer) (c : Chooser) :
    respond d c s line =
      if isNew (Text.trim line) ∧ s.prompt = .guess ∧ ¬isQuit (Text.trim line) ∨
          isYes (Text.trim line) ∧ s.prompt = .again then again d c
      else ⟨farewell, [], none⟩ := by
  unfold guess? at h
  unfold respond
  cases hs : s.prompt with
  | guess =>
    rw [hs] at h
    dsimp only at h ⊢
    by_cases hquit : isQuit (Text.trim line) = true
    · simp [hquit]
    · by_cases hnew : isNew (Text.trim line) = true
      · simp [hquit, hnew]
      · simp [hquit, hnew] at h
  | again => simp

end Dialogue

/-! ## Two alike books side by side -/

namespace Book.Alike

variable {b₁ b₂ : Book} {g : Guess}

/-- The same guess gets the same answer. -/
theorem submit_eq (h : b₁.Alike b₂) {r : Round}
    (hsame : SameFeedback b₁ b₂ r.challenge.target g) : r.submit b₁ g = r.submit b₂ g := by
  unfold Round.submit
  rw [h.check_eq hsame]

theorem after_eq (h : b₁.Alike b₂) {r : Round}
    (hsame : SameFeedback b₁ b₂ r.challenge.target g) : r.after b₁ g = r.after b₂ g := by
  unfold Round.after
  rw [h.submit_eq hsame]

/-- A run of moves shows the same, as long as no submitted guess is compared differently. -/
theorem sights_eq (h : b₁.Alike b₂) (ms : List Round.Move) (r : Round)
    (hsame : ∀ q ∈ Round.submitted b₁ r ms, SameFeedback b₁ b₂ q.1 q.2) :
    Round.sights b₁ r ms = Round.sights b₂ r ms := by
  -- one move leads both runs to the same round, so the induction is over the moves for any round
  induction ms generalizing r with
  | nil => rfl
  | cons m ms ih =>
    rw [Round.sights, Round.sights]
    cases m with
    | draw difficulty luck maxAttempts =>
      have hmove : r.move b₁ (.draw difficulty luck maxAttempts) =
          r.move b₂ (.draw difficulty luck maxAttempts) := by
        simp only [Round.move, h.challenge_eq difficulty luck]
      rw [← hmove, ih _ hsame]
    | guess g =>
      rw [Round.submitted, List.forall_mem_cons] at hsame
      obtain ⟨hguess, hrest⟩ := hsame
      have hmove : r.move b₁ (.guess g) = r.move b₂ (.guess g) := by
        simp only [Round.move, h.submit_eq hguess, h.after_eq hguess]
      rw [← hmove, ih _ hrest]

variable {difficulty : Option UInt8}

/-- New rounds are announced alike. -/
theorem again_eq (h : b₁.Alike b₂) (c : Chooser) :
    Dialogue.again ⟨b₁, difficulty⟩ c = Dialogue.again ⟨b₂, difficulty⟩ c := by
  unfold Dialogue.again Dialogue.newRound Dealer.deal
  dsimp only
  rw [h.challenge_eq difficulty c, h.trace_draw_eq difficulty c]

theorem newRound_eq (h : b₁.Alike b₂) (c : Chooser) :
    Dialogue.newRound ⟨b₁, difficulty⟩ c = Dialogue.newRound ⟨b₂, difficulty⟩ c := by
  unfold Dialogue.newRound Dealer.deal
  dsimp only
  rw [h.challenge_eq difficulty c]

theorem start_eq (h : b₁.Alike b₂) (c : Chooser) :
    Dialogue.start ⟨b₁, difficulty⟩ c = Dialogue.start ⟨b₂, difficulty⟩ c := by
  unfold Dialogue.start
  dsimp only
  rw [h.newRound_eq c, h.trace_draw_eq difficulty c]

theorem answerGuess_eq (h : b₁.Alike b₂) {r : Round}
    (hsame : SameFeedback b₁ b₂ r.challenge.target g) :
    Dialogue.answerGuess ⟨b₁, difficulty⟩ r g = Dialogue.answerGuess ⟨b₂, difficulty⟩ r g := by
  unfold Dialogue.answerGuess
  dsimp only
  rw [h.submit_eq hsame, h.trace_check_eq hsame]

/-- One line is answered alike. -/
theorem respond_eq (h : b₁.Alike b₂) {s : Dialogue.State} {line : List Char} (c : Chooser)
    (hsame : ∀ g, Dialogue.guess? s line = some g →
      SameFeedback b₁ b₂ s.round.challenge.target g) :
    Dialogue.respond ⟨b₁, difficulty⟩ c s line = Dialogue.respond ⟨b₂, difficulty⟩ c s line := by
  cases hg : Dialogue.guess? s line with
  | none =>
    rw [Dialogue.respond_of_guess?_none hg, Dialogue.respond_of_guess?_none hg, h.again_eq c]
  | some g =>
    rw [Dialogue.respond_of_guess? hg, Dialogue.respond_of_guess? hg,
      h.answerGuess_eq (hsame g hg)]

/-- A conversation goes the same way, as long as no submitted guess is compared differently. -/
theorem converse_eq (h : b₁.Alike b₂) (lines : List (InputLine × Chooser)) (s : Dialogue.State)
    (hsame : ∀ q ∈ Dialogue.submitted ⟨b₁, difficulty⟩ s lines, SameFeedback b₁ b₂ q.1 q.2) :
    Dialogue.converse ⟨b₁, difficulty⟩ s lines = Dialogue.converse ⟨b₂, difficulty⟩ s lines := by
  induction lines generalizing s with
  | nil => rfl
  | cons entry rest ih =>
    obtain ⟨line, c⟩ := entry
    cases line with
    | none => rfl
    | some line =>
      rw [Dialogue.submitted, List.forall_mem_append] at hsame
      obtain ⟨hguess, hrest⟩ := hsame
      have hreply : Dialogue.respond ⟨b₁, difficulty⟩ c s line =
          Dialogue.respond ⟨b₂, difficulty⟩ c s line := by
        apply h.respond_eq c
        intro g hg
        exact hguess (s.round.challenge.target, g) (by simp [hg])
      rw [Dialogue.converse, Dialogue.converse, ← hreply]
      cases hnext : (Dialogue.respond ⟨b₁, difficulty⟩ c s line).next with
      | none => rfl
      | some next =>
        rw [hnext] at hrest
        dsimp only
        rw [ih next hrest]

/-- A whole conversation prints and notes the same. -/
theorem run_eq (h : b₁.Alike b₂) (first : Chooser) (lines : List (InputLine × Chooser))
    (hsame : ∀ q ∈ Dialogue.submitted ⟨b₁, difficulty⟩
      (Dialogue.newRound ⟨b₁, difficulty⟩ first) lines, SameFeedback b₁ b₂ q.1 q.2) :
    Dialogue.run ⟨b₁, difficulty⟩ first lines = Dialogue.run ⟨b₂, difficulty⟩ first lines := by
  unfold Dialogue.run
  dsimp only
  rw [h.converse_eq lines _ hsame, h.start_eq first, h.newRound_eq first]

/-- **A player learns nothing else of the solution.**  Two books that differ in their solutions
only show the same in every run of draws and guesses, and print the same in every conversation,
if the feedback on each submitted guess that has the target's value is the same.  A guess that has
another value or none gets the same answer whatever the solution of a length is. -/
theorem nothing_else_learned (h : b₁.Alike b₂) :
    (∀ (r : Round) (ms : List Round.Move),
      (∀ q ∈ Round.submitted b₁ r ms, SameFeedback b₁ b₂ q.1 q.2) →
      Round.sights b₁ r ms = Round.sights b₂ r ms) ∧
    (∀ (difficulty : Option UInt8) (first : Chooser) (lines : List (InputLine × Chooser)),
      (∀ q ∈ Dialogue.submitted ⟨b₁, difficulty⟩ (Dialogue.newRound ⟨b₁, difficulty⟩ first) lines,
        SameFeedback b₁ b₂ q.1 q.2) →
      Dialogue.run ⟨b₁, difficulty⟩ first lines = Dialogue.run ⟨b₂, difficulty⟩ first lines) ∧
    (∀ (g : Guess) (t : Int64) (s₁ s₂ : Solution), s₁.length = s₂.length →
      (∀ v, Expr.evaluate g.chars = .ok v → (v == targetFloat t) = false) →
      checkGuess g t s₁ = checkGuess g t s₂) := by
  refine ⟨fun r ms hsame => h.sights_eq ms r hsame,
    fun difficulty first lines hsame => h.run_eq first lines hsame, ?_⟩
  intro g t s₁ s₂ hlen hmiss
  apply checkGuess_congr hlen
  intro v hv heq
  rw [hmiss v hv] at heq
  cases heq

/-- The solutions `1+2` and `2+1` of the target three are not told apart by a guess that is too
short, by one with another value, or by `0+3`. -/
theorem sums_not_told_apart :
    let b₁ := Book.ofList 3 [⟨3, ⟨['1', '+', '2'], by decide, by decide⟩, 1⟩] (by decide)
    let b₂ := Book.ofList 3 [⟨3, ⟨['2', '+', '1'], by decide, by decide⟩, 1⟩] (by decide)
    let r := Round.start (b₁.challenge none fun _ => 0)
    let gs := [Guess.ofChars ['1', '2'], .ofChars ['1', '×', '2'], .ofChars ['0', '+', '3']]
    b₁.puzzles ≠ b₂.puzzles ∧ b₁.Alike b₂ ∧
      (∀ q ∈ Round.submitted b₁ r (gs.map .guess), SameFeedback b₁ b₂ q.1 q.2) ∧
      Round.sights b₁ r (gs.map .guess) = Round.sights b₂ r (gs.map .guess) := by
  intro b₁ b₂ r gs
  have hshort : SameFeedback b₁ b₂ 3 (.ofChars ['1', '2']) := by
    intro _ _ _ p₁ h₁ p₂ h₂ _ _
    rw [List.mem_singleton.1 h₁, List.mem_singleton.1 h₂]
    decide
  have hother : SameFeedback b₁ b₂ 3 (.ofChars ['1', '×', '2']) := by
    intro v hv heq
    have hread : Expr.readExact (Guess.ofChars ['1', '×', '2']).chars =
        .ok (.binary .times (.number 1) (.number 2)) :=
      Expr.readExact_eq_ok_iff.2
        ⟨by decide, ⟨⟨[], ['1']⟩, [(.times, ⟨[], ['2']⟩)]⟩, rfl, rfl⟩
    rw [Expr.evaluate_of_readExact (by decide) (Guess.plain _) hread rfl, Except.ok.injEq] at hv
    rw [← hv] at heq
    exact absurd heq (by decide)
  have hsum : SameFeedback b₁ b₂ 3 (.ofChars ['0', '+', '3']) := by
    intro _ _ _ p₁ h₁ p₂ h₂ _ _
    rw [List.mem_singleton.1 h₁, List.mem_singleton.1 h₂]
    decide
  have hsame : ∀ q ∈ Round.submitted b₁ r (gs.map .guess), SameFeedback b₁ b₂ q.1 q.2 := by
    rw [Round.submitted_map_guess]
    simp only [gs, List.map_cons, List.map_nil, List.forall_mem_cons]
    exact ⟨hshort, hother, hsum, by simp⟩
  have halike : b₁.Alike b₂ := ⟨rfl, rfl⟩
  exact ⟨by decide, halike, hsame, (nothing_else_learned halike).1 r _ hsame⟩

end Book.Alike

end HiddenEquation
