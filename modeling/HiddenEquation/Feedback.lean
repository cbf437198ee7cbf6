import HiddenEquation.Guess

/-!
# Feedback on a guess

Each slot of a guess gets a mark: the character is right and in place, it occurs elsewhere,
or there is no occurrence left for it.  `Feedback.ofChars` hands out the occurrences: slots in
place take theirs first; the others go from left to right and take from what is left, so no
character is marked more often than the solution holds it.

* `Feedback.length_ofChars` : one mark to a slot.
* `Feedback.ofCodes?_codes` : feedback is read back from its letters.
-/

namespace HiddenEquation

/-- The mark of one slot. -/
inductive Mark where
  | correct
  | present
  | absent
deriving DecidableEq, Repr

namespace Mark

/-- The tile that shows the mark. -/
def emoji : Mark → Char
  | correct => '🟩'
  | present => '🟨'
  | absent => '⬜'

/-- The letter that stands for the mark. -/
def code : Mark → Char
  | correct => 'C'
  | present => 'P'
  | absent => '-'

/-- The mark that a letter or a tile stands for. -/
def ofCode? : Char → Option Mark
  | 'C' | 'c' | '🟩' => some correct
  | 'P' | 'p' | '🟨' => some present
  | '-' | '_' | '⬜' => some absent
  | _ => none

@[simp] theorem ofCode?_code (m : Mark) : ofCode? m.code = some m := by cases m <;> rfl

end Mark

/-- The marks of a guess, one to a slot. -/
structure Feedback where
  marks : List Mark
deriving DecidableEq, Repr

/-- A guess that does not have as many characters as the solution. -/
structure LengthMismatch where
  expected : Nat
  found : Nat
deriving DecidableEq, Repr

/-- The wording of a mismatch between a guess and a solution. -/
def LengthMismatch.message (m : LengthMismatch) : String :=
  s!"Guess has {m.found} characters but the solution has {m.expected}"

namespace Feedback

/-- The feedback of a guess that is refused: no mark is given away. -/
def allAbsent (n : Nat) : Feedback := ⟨List.replicate n .absent⟩

/-- The number of slots. -/
def length (f : Feedback) : Nat := f.marks.length

/-- Whether all slots are correct; feedback without slots solves nothing. -/
def solved (f : Feedback) : Bool := !f.marks.isEmpty && f.marks.all (· == .correct)

/-- How many slots have the mark. -/
def count (f : Feedback) (m : Mark) : Nat := f.marks.count m

/-- The marks as letters. -/
def codes (f : Feedback) : String := String.ofList (f.marks.map Mark.code)

/-- The marks as tiles. -/
def emoji (f : Feedback) : String := String.ofList (f.marks.map Mark.emoji)

/-- Feedback from letters or tiles, of which there must be one. -/
def ofCodes? (s : List Char) : Option Feedback :=
  if s = [] then none else (s.mapM Mark.ofCode?).map Feedback.mk

/-! ## Comparing a guess with a solution -/

/-- The characters of the solution that the guess does not have in place. -/
def unclaimed : List Char → List Char → List Char
  | g :: gs, a :: as => if g = a then unclaimed gs as else a :: unclaimed gs as
  | _, _ => []

/-- The marks of a guess against a solution, when `pool` holds the occurrences that are left
for slots that are not in place. -/
def marksFrom (pool : List Char) : List Char → List Char → List Mark
  | g :: gs, a :: as =>
    if g = a then .correct :: marksFrom pool gs as
    else if g ∈ pool then .present :: marksFrom (pool.erase g) gs as
    else .absent :: marksFrom pool gs as
  | _, _ => []

/-- The feedback of a guess against a solution of the same length. -/
def ofChars (guess answer : List Char) : Feedback :=
  ⟨marksFrom (unclaimed guess answer) guess answer⟩

/-- Compares a guess with a solution. -/
def compare (g : Guess) (s : Solution) : Except LengthMismatch Feedback :=
  if g.length = s.length then .ok (ofChars g.chars s.chars)
  else .error ⟨s.length, g.length⟩

theorem length_marksFrom (pool guess answer : List Char) :
    (marksFrom pool guess answer).length = min guess.length answer.length := by
  induction guess generalizing pool answer with
  | nil => simp [marksFrom]
  | cons g gs ih =>
    cases answer with
    | nil => simp [marksFrom]
    | cons a as =>
      rw [marksFrom]
      split
      · simp only [List.length_cons, ih]; omega
      · split <;> simp only [List.length_cons, ih] <;> omega

/-- One mark to a slot. -/
theorem length_ofChars {guess answer : List Char} (h : guess.length = answer.length) :
    (ofChars guess answer).length = guess.length := by
  simp [ofChars, length, length_marksFrom, h]

/-- Feedback is read back from its letters. -/
theorem ofCodes?_codes {f : Feedback} (h : f.marks ≠ []) : ofCodes? f.codes.toList = some f := by
  have hmap : ∀ ms : List Mark, (ms.map Mark.code).mapM Mark.ofCode? = some ms := by
    intro ms
    induction ms with
    | nil => rfl
    | cons m ms ih => simp [List.mapM_cons, ih]
  simp [ofCodes?, codes, h, hmap]

end Feedback

end HiddenEquation
