import HiddenEquation.Draw
import HiddenEquation.Proofs.Round.Submission

/-!
# What is drawn is what is checked

A draw picks by place among some candidates; a check looks a puzzle up by its target.  Targets are
distinct in a book and its puzzles have one length, so the challenge of a drawn puzzle leads every
check back to that puzzle.

* `Chooser.exists_pick_eq_iff` : luck can pick every candidate.
* `Book.draw_eq_pick` : what a draw picks from.
* `Book.isChallenge_ofPuzzle` : where the challenge of a puzzle leads.
* `Book.draw_agrees_check` : draws and checks agree on the puzzle.
-/

namespace HiddenEquation

namespace Chooser

variable {α : Type} {l : List α}

/-- Picking is looking up a place that the list has. -/
theorem getElem?_eq_pick (c : Chooser) (h : l ≠ []) :
    l[(c (l.length - 1)).val]? = some (c.pick l h) :=
  List.getElem?_eq_getElem _

/-- Every candidate, and nothing else, can be picked. -/
theorem exists_pick_eq_iff (h : l ≠ []) {a : α} : (∃ c : Chooser, c.pick l h = a) ↔ a ∈ l := by
  constructor
  · rintro ⟨c, rfl⟩
    exact c.pick_mem h
  · intro ha
    obtain ⟨i, hi, rfl⟩ := List.getElem_of_mem ha
    -- A chooser answers for every number of candidates, so the place is cut off for the others.
    refine ⟨fun n => ⟨min i n, Nat.lt_succ_of_le (Nat.min_le_right i n)⟩, ?_⟩
    have hplace : min i (l.length - 1) = i := Nat.min_eq_left (Nat.le_sub_one_of_lt hi)
    simp only [pick, List.get_eq_getElem, hplace]

end Chooser

namespace Book

variable {b : Book} {p : Puzzle} {d : UInt8}

/-! ## Candidates -/

/-- The puzzles that a draw picks from: those of the difficulty asked for, or all when there are
none or none are asked for. -/
def candidates (b : Book) : Option UInt8 → List Puzzle
  | none => b.puzzles
  | some d => if b.ofDifficulty d = [] then b.puzzles else b.ofDifficulty d

theorem mem_ofDifficulty_iff : p ∈ b.ofDifficulty d ↔ p ∈ b.puzzles ∧ p.difficulty = d := by
  rw [ofDifficulty, List.mem_filter, decide_eq_true_iff]

theorem ofDifficulty_eq_nil_iff : b.ofDifficulty d = [] ↔ ∀ p ∈ b.puzzles, p.difficulty ≠ d := by
  simp only [List.eq_nil_iff_forall_not_mem, mem_ofDifficulty_iff, not_and, ne_eq]

/-- There is always something to pick from. -/
theorem candidates_ne_nil (b : Book) (difficulty : Option UInt8) :
    b.candidates difficulty ≠ [] := by
  cases difficulty with
  | none => exact b.nonempty
  | some d =>
    rw [candidates]
    split
    · exact b.nonempty
    · assumption

/-- A draw picks one of the candidates. -/
theorem draw_eq_pick (b : Book) (difficulty : Option UInt8) (c : Chooser) :
    b.draw difficulty c = c.pick (b.candidates difficulty) (b.candidates_ne_nil difficulty) := by
  cases difficulty with
  | none => rfl
  | some d =>
    rw [draw]
    split
    · rename_i h
      simp only [candidates, if_pos h]
      rfl
    · rename_i h
      simp only [candidates, if_neg h]

theorem exists_draw_eq_iff {difficulty : Option UInt8} :
    (∃ c, b.draw difficulty c = p) ↔ p ∈ b.candidates difficulty := by
  simp only [draw_eq_pick]
  exact Chooser.exists_pick_eq_iff _

/-! ## Challenges -/

/-- The challenge of a puzzle in a book.  The book finds that very puzzle by the target, which is
therefore known to every check, and only guesses of another length than announced are refused. -/
structure IsChallenge (b : Book) (r : Challenge) (p : Puzzle) : Prop where
  get? : b.get? r.target = some p
  find : b.find r.target = .ok p
  difficulty : r.difficulty = p.difficulty
  known : ∀ g t, b.check g r.target ≠ .error (.unknownTarget t)
  mismatch : ∀ g m, b.check g r.target = .error (.lengthMismatch m) ↔
    g.length ≠ r.length ∧ m = ⟨r.length, g.length⟩

theorem find_of_mem (hp : p ∈ b.puzzles) : b.find p.target = .ok p := by
  rw [find, get?_of_mem hp]

/-- A check at the target of a puzzle is refused for the length of the guess only. -/
theorem check_eq_error_iff_of_mem (hp : p ∈ b.puzzles) {g : Guess} {e : CheckError} :
    b.check g p.target = .error e ↔
      g.length ≠ b.length ∧ e = .lengthMismatch ⟨b.length, g.length⟩ := by
  by_cases hlen : g.length = b.length
  · obtain ⟨v, hv⟩ := exists_check_eq_ok hp hlen
    refine iff_of_false (fun h => ?_) fun h => h.1 hlen
    rw [hv] at h
    cases h
  · have hrefused : checkGuess g p.target p.solution = .error ⟨b.length, g.length⟩ :=
      checkGuess_eq_error_iff.2 (by rw [b.sized p hp]; exact ⟨hlen, rfl⟩)
    rw [check, find_of_mem hp]
    dsimp only
    rw [hrefused]
    simp only [hlen, ne_eq, not_false_eq_true, true_and, Except.error.injEq, eq_comm]

theorem isChallenge_ofPuzzle (hp : p ∈ b.puzzles) : b.IsChallenge (.ofPuzzle p b.length) p where
  get? := get?_of_mem hp
  find := find_of_mem hp
  difficulty := rfl
  known g t h := by
    obtain ⟨-, hkind⟩ := (check_eq_error_iff_of_mem hp).1 h
    cases hkind
  mismatch g m := by
    rw [Challenge.ofPuzzle, check_eq_error_iff_of_mem hp, CheckError.lengthMismatch.injEq]

/-- **Draws and checks agree on the puzzle.**  A draw finds a puzzle at the place that luck gives it
among the candidates.  Without a difficulty it can be every puzzle of the book and nothing else;
with one, those of the difficulty if there are any, and otherwise the draw is the one without.  The
challenge that is drawn is that of the puzzle drawn. -/
theorem draw_agrees_check (b : Book) :
    (∀ difficulty (c : Chooser), b.candidates difficulty ≠ [] ∧
      (b.candidates difficulty)[(c ((b.candidates difficulty).length - 1)).val]? =
        some (b.draw difficulty c)) ∧
    (∀ p, (∃ c, b.draw none c = p) ↔ p ∈ b.puzzles) ∧
    (∀ d, (∃ p ∈ b.puzzles, p.difficulty = d) →
      ∀ p, (∃ c, b.draw (some d) c = p) ↔ p ∈ b.puzzles ∧ p.difficulty = d) ∧
    (∀ d, (∀ p ∈ b.puzzles, p.difficulty ≠ d) → ∀ c, b.draw (some d) c = b.draw none c) ∧
    ∀ difficulty c, b.IsChallenge (b.challenge difficulty c) (b.draw difficulty c) := by
  refine ⟨fun difficulty c => ⟨b.candidates_ne_nil difficulty, ?_⟩, fun p => exists_draw_eq_iff,
    ?_, ?_, fun difficulty c => isChallenge_ofPuzzle (b.draw_mem difficulty c)⟩
  · rw [draw_eq_pick, Chooser.getElem?_eq_pick]
  · rintro d ⟨q, hq, hd⟩ p
    have hsome : ¬b.ofDifficulty d = [] := fun hnil => ofDifficulty_eq_nil_iff.1 hnil q hq hd
    rw [exists_draw_eq_iff, candidates, if_neg hsome, mem_ofDifficulty_iff]
  · intro d hnone c
    exact dif_pos (ofDifficulty_eq_nil_iff.2 hnone)

end Book

end HiddenEquation
