import HiddenEquation.Glyph

/-!
# Guesses and solutions

Both are rows of characters, one to a slot, in which `×` has become `*`.  A guess may be any
such row; a solution is never empty.

* `Guess.ofChars_chars` : a guess is the guess of its own characters.
* `Solution.chars_ofChars?` : what a solution holds when it is built.
-/

namespace HiddenEquation

/-- An equation that a player proposes, one character to a slot. -/
structure Guess where
  chars : List Char
  plain : multiplicationGlyph ∉ chars
deriving DecidableEq

namespace Guess

/-- The guess with the given characters, `×` replaced by `*`. -/
def ofChars (s : List Char) : Guess := ⟨s.map plainSign, not_mem_map_plainSign s⟩

/-- The guess that a text spells. -/
def ofString (s : String) : Guess := ofChars s.toList

/-- The number of slots. -/
def length (g : Guess) : Nat := g.chars.length

/-- The characters in one string. -/
def text (g : Guess) : String := String.ofList g.chars

@[simp] theorem chars_ofChars (s : List Char) : (ofChars s).chars = s.map plainSign := rfl

@[simp] theorem length_ofChars (s : List Char) : (ofChars s).length = s.length := by
  simp [length]

@[simp] theorem ofChars_chars (g : Guess) : ofChars g.chars = g := by
  cases g with
  | mk chars plain => simp [ofChars, map_plainSign_of_not_mem plain]

end Guess

/-- The hidden equation of a puzzle, known only through feedback. -/
structure Solution where
  chars : List Char
  nonempty : chars ≠ []
  plain : multiplicationGlyph ∉ chars
deriving DecidableEq

namespace Solution

/-- The solution with the given characters, `×` replaced by `*`; there is none without
characters. -/
def ofChars? (s : List Char) : Option Solution :=
  if h : s = [] then none
  else some ⟨s.map plainSign, by simpa using h, not_mem_map_plainSign s⟩

/-- The number of slots. -/
def length (s : Solution) : Nat := s.chars.length

/-- The characters in one string. -/
def text (s : Solution) : String := String.ofList s.chars

/-- The solution as a guess. -/
def toGuess (s : Solution) : Guess := ⟨s.chars, s.plain⟩

/-- How often each character occurs, in the order of the characters. -/
def counts (s : Solution) : List (Char × Nat) :=
  (s.chars.eraseDups.mergeSort fun a b => decide (a ≤ b)).map fun c => (c, s.chars.count c)

/-- What diagnostics may show of a solution: its length. -/
def redacted (s : Solution) : String := s!"Solution \x7b len: {s.length}, .. \x7d"

theorem length_pos (s : Solution) : 0 < s.length := List.length_pos_iff.2 s.nonempty

theorem ofChars?_eq_none_iff {s : List Char} : ofChars? s = none ↔ s = [] := by
  unfold ofChars?
  split <;> simp_all

theorem chars_ofChars? {s : List Char} {sol : Solution} (h : ofChars? s = some sol) :
    sol.chars = s.map plainSign := by
  unfold ofChars? at h
  split at h
  · cases h
  · cases h
    rfl

@[simp] theorem length_toGuess (s : Solution) : s.toGuess.length = s.length := rfl

end Solution

end HiddenEquation
