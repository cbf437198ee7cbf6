import HiddenEquation.Proofs.Play.Consistent
import HiddenEquation.Proofs.Play.Typing

/-!
# Typing plays the round

The screen knows keys and an input line, the round knows guesses.  Seen from the round, typing a
text into an empty line and submitting it is one guess, `entered`, if it fills the line, and nothing
at all otherwise; several texts one after another are several guesses.

* `Game.typeAll_clear` : what is entered of a text.
* `Game.round_enter` : what a text does to the round.
* `Game.round_enterAll` : what several texts do to it.
* `Game.typed_guess_plays` : what a text does to a game that can come about.
-/

namespace HiddenEquation.Play

/-! ## What is entered -/

/-- What is entered of a text into an empty line of the given length. -/
def entered (t : List Char) (length : Nat) : List Char :=
  ((t.map asSign).filter inEquations).take length

namespace Game

variable {g : Game} {b : Book} {d : Dealer}

/-- Types a text into the emptied line and submits it. -/
def enter (g : Game) (b : Book) (t : List Char) : Game := (g.clear.typeAll t).submit b

theorem typeAll_clear (g : Game) (t : List Char) :
    g.clear.typeAll t = { g with input := entered t g.length } := by
  rw [typeAll_eq (Nat.zero_le _), filterMap_keypad?]
  rfl

/-! ## The round -/

/-- Submitting a full line is submitting the guess to the round. -/
theorem round_submit (h : g.input.length = g.length) :
    (g.submit b).round = g.round.after b (.ofChars g.input) := by
  rw [submit_of_full h, Round.after]
  cases hsubmit : g.round.submit b (.ofChars g.input) with
  | error e => cases e <;> rfl
  | ok answer =>
    obtain ⟨v, next⟩ := answer
    dsimp only
    cases hvalid : v.valid with
    | true => exact round_accept g v next
    | false => exact (Round.eq_of_submit_not_valid hsubmit hvalid).symm

/-- **What a text does to the round**: it is a guess if what is entered of it fills the line. -/
theorem round_enter (g : Game) (b : Book) (t : List Char) : (g.enter b t).round =
    if (entered t g.length).length = g.length then
      g.round.after b (.ofChars (entered t g.length))
    else g.round := by
  rw [enter, typeAll_clear]
  split
  · rename_i h
    exact round_submit (g := { g with input := entered t g.length }) h
  · rename_i h
    rw [submit_of_length_ne (g := { g with input := entered t g.length }) h, round_post]

theorem length_enter (g : Game) (b : Book) (t : List Char) : (g.enter b t).length = g.length := by
  have hround := round_enter g b t
  rw [length, hround]
  split
  · rw [Round.challenge_after]
    rfl
  · rfl

/-- Types and submits several texts one after another. -/
def enterAll (g : Game) (b : Book) (ts : List (List Char)) : Game :=
  ts.foldl (fun g t => g.enter b t) g

/-- The guesses that several texts are on a line of the given length. -/
def guessesOf (length : Nat) (ts : List (List Char)) : List Guess :=
  ((ts.map (entered · length)).filter fun f => f.length = length).map Guess.ofChars

theorem guessesOf_cons_of_full {length : Nat} {t : List Char} (ts : List (List Char))
    (h : (entered t length).length = length) :
    guessesOf length (t :: ts) = .ofChars (entered t length) :: guessesOf length ts := by
  rw [guessesOf, List.map_cons, List.filter_cons_of_pos (by simpa using h), List.map_cons]
  rfl

theorem guessesOf_cons_of_ne {length : Nat} {t : List Char} (ts : List (List Char))
    (h : (entered t length).length ≠ length) :
    guessesOf length (t :: ts) = guessesOf length ts := by
  rw [guessesOf, List.map_cons, List.filter_cons_of_neg (by simpa using h)]
  rfl

/-- **What several texts do to the round**: they play it with those that fill the line. -/
theorem round_enterAll (g : Game) (b : Book) (ts : List (List Char)) :
    (g.enterAll b ts).round = g.round.play b (guessesOf g.length ts) := by
  induction ts generalizing g with
  | nil => rfl
  | cons t ts ih =>
    show ((g.enter b t).enterAll b ts).round = _
    rw [ih, length_enter, round_enter]
    by_cases hfull : (entered t g.length).length = g.length
    · rw [if_pos hfull, guessesOf_cons_of_full ts hfull, Round.play_cons]
    · rw [if_neg hfull, guessesOf_cons_of_ne ts hfull]

/-! ## The whole game -/

/-- A guess that is refused stays for editing, and one message is added. -/
theorem submit_of_not_valid {v : Verdict} {next : Round} (hlen : g.input.length = g.length)
    (hsubmit : g.round.submit b (.ofChars g.input) = .ok (v, next)) (hvalid : v.valid = false) :
    g.submit b = g.post .error (refusal v) := by
  rw [submit_of_full hlen, hsubmit]
  exact if_neg (by rw [hvalid]; exact Bool.false_ne_true)

/-- A guess that is accepted empties the line, is counted if it ends the round, and then ends the
guessing too. -/
theorem Consistent.accepted (h : Consistent d g) {v : Verdict} {next : Round}
    (hlen : g.input.length = g.length)
    (hsubmit : g.round.submit d.book (.ofChars g.input) = .ok (v, next)) (hvalid : v.valid = true) :
    (g.submit d.book).input = [] ∧ ((g.submit d.book).mode = .over ↔ next.status ≠ .playing) ∧
      (g.submit d.book).tally = g.tally.count next := by
  have haccept : g.submit d.book = g.accept v next := by
    rw [submit_of_full hlen, hsubmit]
    exact if_pos hvalid
  refine ⟨?_, ?_, ?_⟩
  · rw [haccept, input_accept]
  · rw [h.submit.over_iff, haccept, round_accept]
  · rw [haccept, tally_accept]

/-- **Typing a guess plays the round.**  In a game that can come about and in which equations are
proposed, a text that is typed into the emptied line and submitted is nothing to the round if what
is entered of it does not fill the line, and otherwise it is that guess, which is always answered.
A guess that is not accepted stays in the line, one message is added, and nothing else changes;
after one that is accepted the line is empty, and the guessing is over exactly if the round is. -/
theorem typed_guess_plays (d : Dealer) (first : Chooser) (ss : List Step) (t : List Char) :
    let g := (start d first).steps d ss
    let f := entered t g.length
    let after := g.enter d.book t
    g.mode = .guessing →
      (f.length ≠ g.length → after = Game.post { g with input := f } .error
        s!"Equation must be {g.length} characters!") ∧
      (f.length = g.length → ∃ v next, g.round.submit d.book (.ofChars f) = .ok (v, next) ∧
        after.round = next ∧
        (v.valid = false → next = g.round ∧
          after = Game.post { g with input := f } .error (refusal v)) ∧
        (v.valid = true → after.input = [] ∧ (after.mode = .over ↔ next.status ≠ .playing) ∧
          after.tally = g.tally.count next)) := by
  intro g f after hmode
  have hline : g.clear.typeAll t = { g with input := f } := typeAll_clear g t
  have hafter : after = Game.submit { g with input := f } d.book := by rw [← hline]; rfl
  have htyped : Consistent d { g with input := f } := by
    rw [← hline]
    exact ((Consistent.start d first).steps ss).clear.typeAll t
  rw [hafter]
  constructor
  · intro hshort
    exact submit_of_length_ne (g := { g with input := f }) hshort
  · intro hfull
    obtain ⟨v, next, hsubmit⟩ := htyped.exists_submit_eq_ok hmode hfull
    have hround : (Game.submit { g with input := f } d.book).round = next :=
      (round_submit (g := { g with input := f }) hfull).trans (Round.after_of_submit hsubmit)
    refine ⟨v, next, hsubmit, hround, ?_, htyped.accepted hfull hsubmit⟩
    intro hvalid
    exact ⟨Round.eq_of_submit_not_valid hsubmit hvalid,
      submit_of_not_valid (g := { g with input := f }) hfull hsubmit hvalid⟩

/-- Seven times six is typed with a letter, blanks and two characters too many, into a game in which
a line that was too short has been submitted, and ends it. -/
theorem typed_product_with_slips :
    let p : Puzzle := ⟨42, ⟨['7', '*', '6'], by decide, by decide⟩, 1⟩
    let b : Book := .ofList 3 [p] (by decide)
    let d : Dealer := ⟨b, none⟩
    let g := (start d fun _ => 0).steps d [.type '1', .submit]
    g.mode = .guessing ∧ (g.enter b "a7 x 6+1".toList).input = [] ∧
      (g.enter b "a7 x 6+1".toList).mode = .over := by
  intro p b d g
  have hread : Expr.readExact p.solution.chars = .ok (.binary .times (.number 7) (.number 6)) :=
    Expr.readExact_eq_ok_iff.2
      ⟨by decide, ⟨⟨[], ['7']⟩, [(.times, ⟨[], ['6']⟩)]⟩, rfl, rfl⟩
  have hsound : p.IsSound :=
    ⟨_, Expr.evaluate_of_readExact (by decide) p.solution.plain hread rfl, by decide⟩
  have hmode : g.mode = .guessing := rfl
  obtain ⟨-, hplays⟩ :=
    typed_guess_plays d (fun _ => 0) [.type '1', .submit] "a7 x 6+1".toList hmode
  obtain ⟨v, next, hsubmit, -, -, haccepted⟩ := hplays rfl
  obtain ⟨-, hcheck, hnext⟩ := Round.submit_eq_ok_iff.1 hsubmit
  -- What is entered is the solution, which solves its puzzle.
  obtain ⟨w, hw, hsolved⟩ := hsound.exists_check_toGuess
  have hv : checkGuess p.solution.toGuess p.target p.solution = .ok v :=
    (Book.check_eq_ok_iff_of_mem (b := b) (p := p) List.mem_cons_self).1 hcheck
  obtain rfl : w = v := Except.ok.inj (hw.symm.trans hv)
  have hvalid : w.valid = true := valid_of_solved hw hsolved
  rw [if_pos hvalid] at hnext
  have hwon : next.status = .won := by
    rw [hnext, Round.status_eq_won_iff]
    exact ⟨_, List.mem_append_right _ List.mem_cons_self, hsolved⟩
  obtain ⟨hinput, hover, -⟩ := haccepted hvalid
  refine ⟨hmode, hinput, hover.2 ?_⟩
  rw [hwon]
  decide

end Game

end HiddenEquation.Play
