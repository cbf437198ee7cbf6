import HiddenEquation.Proofs.Audit.Winnable
import HiddenEquation.Proofs.Book.Line
import HiddenEquation.Proofs.Book.Table
import HiddenEquation.Proofs.Dialogue.Course
import HiddenEquation.Proofs.Expr.Numeral

/-!
# Winning with the solution

A sound solution contains no letter, so it is no command; a solution from a file fits on a line, so
it arrives at the round as it stands in the book.  There it solves the puzzle, and the player is
told so.

* `not_spells_of_isAllowed` : an equation is no command.
* `wins_of_solved` : what a line does that solves the puzzle.
* `solution_wins` : entering the solution of a puzzle of a file.
-/

namespace HiddenEquation.Dialogue

open Styled (plain inked)

/-! ## Commands are words -/

/-- Letters lie between `A` and `z`. -/
theorem toNat_of_isAlpha {c : Char} (h : c.isAlpha = true) : 65 ≤ c.toNat ∧ c.toNat ≤ 122 := by
  have hcase : c.isUpper = true ∨ c.isLower = true := (Bool.or_eq_true _ _).mp h
  rcases hcase with hupper | hlower
  · have hrange : 'A'.val ≤ c.val ∧ c.val ≤ 'Z'.val := of_decide_eq_true hupper
    exact ⟨hrange.1, Nat.le_trans hrange.2 (by decide)⟩
  · obtain ⟨hlo, hhi⟩ := (Bool.and_eq_true _ _).mp hlower
    exact ⟨Nat.le_trans (by decide) (of_decide_eq_true hlo), of_decide_eq_true hhi⟩

/-- There is no letter in an equation. -/
theorem not_isAlpha_of_isAllowed {c : Char} (h : Expr.isAllowed c = true) : c.isAlpha = false := by
  by_contra halpha
  have hletter := toNat_of_isAlpha (by simpa using halpha)
  rcases (Expr.isAllowed_iff c).1 h with hblank | hdigit | hop
  · obtain ⟨r, hr, hlo, hhi⟩ := (Text.isBlank_iff c).1 hblank
    have hapart : ∀ r ∈ Text.blankRanges, r.2 < 65 ∨ 122 < r.1 := by decide
    have := hapart r hr
    omega
  · simp only [Char.isDigit, Bool.and_eq_true, decide_eq_true_eq, ge_iff_le] at hdigit
    have hle : c.toNat ≤ 57 := hdigit.2
    omega
  · simp only [List.mem_cons, List.not_mem_nil, or_false] at hop
    rcases hop with rfl | rfl | rfl | rfl <;> exact absurd hletter (by decide)

theorem toLower_of_not_isAlpha {c : Char} (h : c.isAlpha = false) : c.toLower = c := by
  have hrange : ¬('A'.val ≤ c.val ∧ c.val ≤ 'Z'.val) := by
    intro hrange
    have hupper : c.isUpper = true := decide_eq_true hrange
    have halpha : c.isAlpha = true := (Bool.or_eq_true _ _).mpr (Or.inl hupper)
    rw [h] at halpha
    cases halpha
  exact dif_neg hrange

/-- **An equation is no command.** -/
theorem not_spells_of_isAllowed {line : List Char} (hne : Text.trim line ≠ [])
    (h : ∀ c ∈ line, Expr.isAllowed c = true) :
    ¬Spells line ["quit", "q", "exit", "new", "n"] := by
  rintro ⟨w, hw, hline⟩
  have hletters : ∀ w ∈ ["quit", "q", "exit", "new", "n"], w.toList.all Char.isAlpha = true := by
    decide
  -- Any character of the line will do: no letter comes into it in lower case either.
  obtain ⟨c, hc⟩ := List.exists_mem_of_ne_nil _ hne
  have hother : c.isAlpha = false := not_isAlpha_of_isAllowed (h c (Text.mem_of_mem_trim hc))
  have hmem : c ∈ w.toList := by
    rw [← hline, ← toLower_of_not_isAlpha hother]
    exact List.mem_map_of_mem hc
  rw [List.all_eq_true.1 (hletters w hw) c hmem] at hother
  cases hother

/-! ## A line that wins -/

/-- The part of the praise that says how many guesses it took. -/
def solvedIn (turn : ℕ) : Styled :=
  plain "\n\n  Solved in " ++ inked (.boldOf .brightCyan) (toString turn)
    ++ plain (if turn = 1 then " guess\n" else " guesses\n")

theorem solvedIn_infix_celebration (r : Round) :
    solvedIn r.attempts.length <:+: celebration r := by
  have hleft (x a b c : Styled) : a ++ b ++ c <:+: x ++ a ++ b ++ c := ⟨x, [], by simp⟩
  -- What is printed is joined from the left, so the three spans end what comes before them.
  have hright {x y : Styled} (z : Styled) (h : x <:+: y) : x <:+: y ++ z :=
    h.trans (List.prefix_append y z).isInfix
  exact hright _ (hright _ (hright _ (hright _ (hright _ (hleft _ _ _ _)))))

/-- What a line does at a guess prompt that wins the round: it is no command, the round takes it as
one more attempt, which solves the puzzle, and the player is told in how many attempts and asked for
another game. -/
structure Wins (d : Dealer) (s : State) (line : List Char) (v : Verdict) (next : Round) : Prop where
  no_command : ¬Spells line ["quit", "q", "exit", "new", "n"]
  submit : s.round.submit d.book (.ofChars (Text.trim line)) = .ok (v, next)
  valid : v.valid = true
  solved : v.solved = true
  won : next.status = .won
  asked : ∀ c, (respond d c s line).next = some ⟨next, .again⟩
  told : ∀ c, solvedIn next.attempts.length <:+: (respond d c s line).printed

/-- Where a guess is asked for, a line that is no command and solves the puzzle wins. -/
theorem wins_of_solved {d : Dealer} {s : State} {line : List Char} {v : Verdict} {next : Round}
    (hprompt : s.prompt = .guess) (hcommand : ¬Spells line ["quit", "q", "exit", "new", "n"])
    (hsubmit : s.round.submit d.book (.ofChars (Text.trim line)) = .ok (v, next))
    (hvalid : v.valid = true) (hsolved : v.solved = true) : Wins d s line v next := by
  obtain ⟨-, -, hnext⟩ := Round.submit_eq_ok_iff.1 hsubmit
  have hwon : next.status = .won := by
    rw [hnext, if_pos hvalid]
    exact Round.status_eq_won_iff.2 ⟨⟨.ofChars (Text.trim line), v⟩, by simp, hsolved⟩
  have hconclude : conclude next = (celebration next, ⟨next, .again⟩) := by
    rw [conclude, hwon]
  refine ⟨hcommand, hsubmit, hvalid, hsolved, hwon, fun c => ?_, fun c => ?_⟩
  · rw [respond_of_not_spells hprompt hcommand, answerGuess, hsubmit]
    dsimp only
    rw [if_pos hvalid, hconclude]
  · rw [respond_of_not_spells hprompt hcommand, answerGuess, hsubmit]
    dsimp only
    rw [if_pos hvalid, hconclude]
    exact (solvedIn_infix_celebration next).trans (List.suffix_append _ _).isInfix

/-! ## The solution of a puzzle -/

/-- **Entering the solution of a puzzle of a file.**  A puzzle that passes its audit is won wherever
a conversation asks for a guess at it: its solution and a break are read as the next line, after any
lines before them, and this line wins the round with one attempt more, the solution. -/
theorem solution_wins {content : Book.FileContent} {n : ℕ} {b : Book}
    (hbook : Book.ofFile content n = .ok b) {p : Puzzle} (hp : p ∈ b.puzzles)
    (haudit : p.audit = .ok ()) {difficulty : Option UInt8} {first : Chooser}
    {entries : List (List Char × Chooser)} {turns : List Turn} {ending : Ending}
    (hcourse : Course ⟨b, difficulty⟩ (newRound ⟨b, difficulty⟩ first) entries turns ending)
    {t : Turn} (ht : t ∈ turns) (hprompt : t.state.prompt = .guess)
    (hround : t.state.round.challenge = .ofPuzzle p b.length) :
    (∀ before after : String, (before = "" ∨ ∃ s, before = s ++ "\n") →
      linesOfBytes (before ++ p.solution.text ++ "\n" ++ after).toUTF8.data.toList =
        linesOfBytes before.toUTF8.data.toList ++ some p.solution.chars ::
          linesOfBytes after.toUTF8.data.toList) ∧
    ∃ v, Wins ⟨b, difficulty⟩ t.state p.solution.chars v
      (t.state.round.record p.solution.toGuess v) := by
  have hline : Text.FitsLine p.solution.chars := Book.fitsLine_solution hbook hp
  have hsound : p.IsSound := Puzzle.audit_eq_ok_iff.1 haudit
  have hready : t.state.Ready := hcourse.ready (State.Ready.newRound _ first) t ht
  have hguess : Guess.ofChars (Text.trim p.solution.chars) = p.solution.toGuess := by
    rw [hline.trim_eq]
    exact Guess.ofChars_chars p.solution.toGuess
  have hne : Text.trim p.solution.chars ≠ [] := hline.trim_eq.symm ▸ p.solution.nonempty
  have hplay : t.state.round.status = .playing := hready.prompt_eq_guess_iff.1 hprompt
  obtain ⟨v, hv, hsolved⟩ := hsound.exists_check_toGuess
  have hvalid : v.valid = true := valid_of_solved hv hsolved
  have hcheck : b.check p.solution.toGuess t.state.round.challenge.target = .ok v := by
    rw [hround]
    exact (Book.check_eq_ok_iff_of_mem hp).2 hv
  have hsubmit : t.state.round.submit b (.ofChars (Text.trim p.solution.chars)) =
      .ok (v, t.state.round.record p.solution.toGuess v) := by
    rw [hguess]
    exact Round.submit_eq_ok_iff.2 ⟨hplay, hcheck, by rw [if_pos hvalid]⟩
  exact ⟨fun before after hbefore => linesOfBytes_enter hline.unbroken hbefore after, v,
    wins_of_solved hprompt (not_spells_of_isAllowed hne hsound.isAllowed) hsubmit hvalid hsolved⟩

/-- Two times three, written with blanks and the sign of keypads, is won by its five characters. -/
theorem spaced_product_wins :
    ∃ b p, Book.ofFile (.ok " 6 : 2 × 3 : 1 \n".toUTF8) 5 = .ok b ∧ p ∈ b.puzzles ∧
      p.audit = .ok () ∧ p.solution.text = "2 * 3" ∧
      ∃ v, Wins ⟨b, none⟩ (newRound ⟨b, none⟩ fun _ => 0) p.solution.chars v
        ((newRound ⟨b, none⟩ fun _ => 0).round.record p.solution.toGuess v) := by
  let p : Puzzle := ⟨6, ⟨['2', ' ', '*', ' ', '3'], by decide, by decide⟩, 1⟩
  let text := " 6 : 2 × 3 : 1 \n"
  have hlines : Entry.puzzles (Text.terminated '\n' text.toList) = [p] := by decide
  let b : Book := .ofList 5 [p] (by decide)
  have hbook : Book.ofFile (.ok text.toUTF8) 5 = .ok b := by
    rw [Book.ofFile, Book.linesOfFile, fromUTF8?_toUTF8]
    dsimp only
    rw [Book.ofLines, hlines]
    exact Book.ofPuzzles_eq_ok _
  have hp : p ∈ b.puzzles := List.mem_cons_self
  have hread : Expr.readExact p.solution.chars = .ok (.binary .times (.number 2) (.number 3)) :=
    Expr.readExact_eq_ok_iff.2
      ⟨by decide, ⟨⟨[], ['2']⟩, [(.times, ⟨[], ['3']⟩)]⟩, rfl, rfl⟩
  have haudit : p.audit = .ok () :=
    Puzzle.audit_eq_ok_iff.2
      ⟨_, Expr.evaluate_of_readExact (by decide) p.solution.plain hread rfl, by decide⟩
  have hdrawn : b.draw none (fun _ => 0) = p :=
    List.mem_singleton.1 (b.draw_mem none fun _ => 0)
  have hround : (newRound ⟨b, none⟩ fun _ => 0).round.challenge = .ofPuzzle p b.length :=
    congrArg (fun q => Challenge.ofPuzzle q b.length) hdrawn
  exact ⟨b, p, hbook, hp, haudit, rfl, (solution_wins hbook hp haudit (Course.closed _)
    (List.mem_singleton_self _) rfl hround).2⟩

end HiddenEquation.Dialogue
