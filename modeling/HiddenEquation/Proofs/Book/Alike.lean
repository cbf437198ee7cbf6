import HiddenEquation.Proofs.Check.Contract
import HiddenEquation.Trace

/-!
# Books that differ in their solutions only

Two books are `Book.Alike` if they show the same targets and difficulties and ask for the same
length.  Of a solution only its length is read, and the comparison with a guess that has the
target's value; so what draws and checks say of alike books is the same wherever that comparison
is, `Book.SameFeedback`.

* `checkGuess_congr` : what a check reads of the solution.
* `Book.Alike.challenge_eq` : alike books pose the same challenges.
* `Book.Alike.check_eq` : alike books give the same answers, as far as comparisons do not differ.
-/

namespace HiddenEquation

/-! ## One check -/

section

variable {g : Guess} {t : Int64} {s₁ s₂ : Solution}

/-- A check reads the length of the solution, and its comparison with a guess that has the
target's value. -/
theorem checkGuess_congr (hlen : s₁.length = s₂.length)
    (h : ∀ v, Expr.evaluate g.chars = .ok v → (v == targetFloat t) = true →
      Feedback.compare g s₁ = Feedback.compare g s₂) :
    checkGuess g t s₁ = checkGuess g t s₂ := by
  unfold checkGuess
  rw [hlen]
  cases hv : Expr.evaluate g.chars with
  | error e => rfl
  | ok v =>
    dsimp only
    by_cases heq : (v == targetFloat t) = true
    · rw [if_pos heq, if_pos heq, h v hv heq]
    · rw [if_neg heq, if_neg heq]

/-- What is noted about a check reads no more of the solution than the check itself. -/
theorem Trace.checkGuess_congr (hlen : s₁.length = s₂.length)
    (h : ∀ v, Expr.evaluate g.chars = .ok v → (v == targetFloat t) = true →
      Feedback.compare g s₁ = Feedback.compare g s₂) :
    Trace.checkGuess g t s₁ = Trace.checkGuess g t s₂ := by
  unfold Trace.checkGuess
  rw [hlen]
  by_cases hg : g.length = s₂.length
  · rw [if_neg (not_not.2 hg), if_neg (not_not.2 hg)]
    cases hv : Expr.evaluate g.chars with
    | error e => rfl
    | ok v =>
      dsimp only
      by_cases heq : (v == targetFloat t) = true
      · have hmarks := h v hv heq
        rw [Feedback.compare_of_length_eq (hg.trans hlen.symm), Feedback.compare_of_length_eq hg,
          Except.ok.injEq] at hmarks
        rw [if_pos heq, if_pos heq, hmarks]
      · rw [if_neg heq, if_neg heq]
  · rw [if_pos hg, if_pos hg]

end

/-! ## Alike books -/

/-- What a puzzle shows of itself before any guess. -/
def Puzzle.face (p : Puzzle) : Int64 × UInt8 := (p.target, p.difficulty)

/-- What is picked by its place is picked of a map of the candidates too. -/
theorem Chooser.map_pick {α β : Type} (c : Chooser) (f : α → β) {l : List α} (h : l ≠ []) :
    f (c.pick l h) = c.pick (l.map f) (by simpa using h) := by
  have hindex : (c ((l.map f).length - 1)).val = (c (l.length - 1)).val := by
    rw [List.length_map]
  simp only [pick, List.get_eq_getElem, List.getElem_map, hindex]

/-- What is picked shows the same face if the candidates do. -/
theorem Chooser.face_pick (c : Chooser) {l₁ l₂ : List Puzzle} (h₁ : l₁ ≠ []) (h₂ : l₂ ≠ [])
    (h : l₁.map Puzzle.face = l₂.map Puzzle.face) :
    (c.pick l₁ h₁).face = (c.pick l₂ h₂).face := by
  rw [c.map_pick Puzzle.face h₁, c.map_pick Puzzle.face h₂]
  congr 1

namespace Book

/-- Books that ask for the same length and show the same targets and difficulties, whatever
their solutions. -/
structure Alike (b₁ b₂ : Book) : Prop where
  length : b₁.length = b₂.length
  faces : b₁.puzzles.map Puzzle.face = b₂.puzzles.map Puzzle.face

/-- The comparison with a guess that has the target's value does not tell two books apart. -/
def SameFeedback (b₁ b₂ : Book) (t : Int64) (g : Guess) : Prop :=
  ∀ v, Expr.evaluate g.chars = .ok v → (v == targetFloat t) = true →
    ∀ p₁ ∈ b₁.puzzles, ∀ p₂ ∈ b₂.puzzles, p₁.target = t → p₂.target = t →
      Feedback.compare g p₁.solution = Feedback.compare g p₂.solution

namespace Alike

variable {b₁ b₂ : Book} {g : Guess} {t : Int64}

theorem faces_ofDifficulty (h : b₁.Alike b₂) (d : UInt8) :
    (b₁.ofDifficulty d).map Puzzle.face = (b₂.ofDifficulty d).map Puzzle.face := by
  have hfilter : ∀ b : Book, (b.ofDifficulty d).map Puzzle.face =
      (b.puzzles.map Puzzle.face).filter fun f => f.2 = d := by
    intro b
    rw [List.filter_map]
    rfl
  rw [hfilter, hfilter, h.faces]

theorem ofDifficulty_eq_nil_iff (h : b₁.Alike b₂) (d : UInt8) :
    b₁.ofDifficulty d = [] ↔ b₂.ofDifficulty d = [] := by
  rw [← List.map_eq_nil_iff (f := Puzzle.face), h.faces_ofDifficulty, List.map_eq_nil_iff]

/-- The same luck draws puzzles that show the same. -/
theorem face_draw (h : b₁.Alike b₂) (difficulty : Option UInt8) (c : Chooser) :
    (b₁.draw difficulty c).face = (b₂.draw difficulty c).face := by
  cases difficulty with
  | none => exact c.face_pick b₁.nonempty b₂.nonempty h.faces
  | some d =>
    by_cases hd : b₁.ofDifficulty d = []
    · have hd' := (h.ofDifficulty_eq_nil_iff d).1 hd
      rw [draw, draw, dif_pos hd, dif_pos hd']
      exact c.face_pick b₁.nonempty b₂.nonempty h.faces
    · have hd' := fun e => hd ((h.ofDifficulty_eq_nil_iff d).2 e)
      rw [draw, draw, dif_neg hd, dif_neg hd']
      exact c.face_pick hd hd' (h.faces_ofDifficulty d)

/-- Alike books pose the same challenges. -/
theorem challenge_eq (h : b₁.Alike b₂) (difficulty : Option UInt8) (c : Chooser) :
    b₁.challenge difficulty c = b₂.challenge difficulty c := by
  have hface := h.face_draw difficulty c
  simp only [Puzzle.face, Prod.mk.injEq] at hface
  rw [challenge, challenge, Challenge.ofPuzzle, Challenge.ofPuzzle, hface.1, hface.2, h.length]

theorem trace_draw_eq (h : b₁.Alike b₂) (difficulty : Option UInt8) (c : Chooser) :
    Trace.draw b₁ difficulty c = Trace.draw b₂ difficulty c := by
  have htarget : (b₁.draw difficulty c).target = (b₂.draw difficulty c).target :=
    congrArg Prod.fst (h.face_draw difficulty c)
  unfold Trace.draw
  rw [htarget]
  cases difficulty with
  | none => rfl
  | some d => simp only [h.ofDifficulty_eq_nil_iff d]

/-- A target is known to both books or to neither. -/
theorem get?_cases (h : b₁.Alike b₂) (t : Int64) :
    (b₁.get? t = none ∧ b₂.get? t = none) ∨
      ∃ p₁ p₂, b₁.get? t = some p₁ ∧ b₂.get? t = some p₂ := by
  have hface : ∀ b : Book, (b.get? t).map Puzzle.face =
      (b.puzzles.map Puzzle.face).find? fun f => f.1 = t := by
    intro b
    rw [b.get?_eq_find?, List.find?_map]
    rfl
  have hsome : (b₁.get? t).map Puzzle.face = (b₂.get? t).map Puzzle.face := by
    rw [hface, hface, h.faces]
  cases h₁ : b₁.get? t with
  | none =>
    rw [h₁, Option.map_none, eq_comm, Option.map_eq_none_iff] at hsome
    exact Or.inl ⟨rfl, hsome⟩
  | some p₁ =>
    rw [h₁, Option.map_some, eq_comm, Option.map_eq_some_iff] at hsome
    obtain ⟨p₂, h₂, -⟩ := hsome
    exact Or.inr ⟨p₁, p₂, rfl, h₂⟩

/-- What a target leads to has one length, and compares alike where the books do. -/
theorem solution_of_get? (h : b₁.Alike b₂) (hsame : SameFeedback b₁ b₂ t g) {p₁ p₂ : Puzzle}
    (h₁ : b₁.get? t = some p₁) (h₂ : b₂.get? t = some p₂) :
    p₁.solution.length = p₂.solution.length ∧
      ∀ v, Expr.evaluate g.chars = .ok v → (v == targetFloat t) = true →
        Feedback.compare g p₁.solution = Feedback.compare g p₂.solution := by
  obtain ⟨hmem₁, ht₁⟩ := mem_of_get? h₁
  obtain ⟨hmem₂, ht₂⟩ := mem_of_get? h₂
  constructor
  · rw [b₁.sized p₁ hmem₁, b₂.sized p₂ hmem₂, h.length]
  · intro v hv heq
    exact hsame v hv heq p₁ hmem₁ p₂ hmem₂ ht₁ ht₂

/-- Alike books give the same answer to a guess that they compare alike. -/
theorem check_eq (h : b₁.Alike b₂) (hsame : SameFeedback b₁ b₂ t g) :
    b₁.check g t = b₂.check g t := by
  unfold check find
  obtain ⟨h₁, h₂⟩ | ⟨p₁, p₂, h₁, h₂⟩ := h.get?_cases t
  · rw [h₁, h₂]
  · obtain ⟨hlen, hcompare⟩ := h.solution_of_get? hsame h₁ h₂
    rw [h₁, h₂]
    dsimp only
    rw [checkGuess_congr hlen hcompare]

theorem trace_check_eq (h : b₁.Alike b₂) (hsame : SameFeedback b₁ b₂ t g) :
    Trace.check b₁ g t = Trace.check b₂ g t := by
  unfold Trace.check
  obtain ⟨h₁, h₂⟩ | ⟨p₁, p₂, h₁, h₂⟩ := h.get?_cases t
  · rw [h₁, h₂]
  · obtain ⟨hlen, hcompare⟩ := h.solution_of_get? hsame h₁ h₂
    rw [h₁, h₂]
    exact Trace.checkGuess_congr hlen hcompare

end Alike

end Book

end HiddenEquation
