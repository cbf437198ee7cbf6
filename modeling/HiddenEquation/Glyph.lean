/-!
# The multiplication sign

On-screen keypads type `×` where the rules of the game say `*`.  The sign is replaced once,
where a text enters, so that evaluation and comparison see one symbol.

* `not_mem_map_plainSign` : no `×` is left.
-/

namespace HiddenEquation

/-- The multiplication sign of on-screen keypads. -/
def multiplicationGlyph : Char := '×'

/-- The character with `×` replaced by `*`. -/
def plainSign (c : Char) : Char := if c = multiplicationGlyph then '*' else c

theorem plainSign_ne_glyph (c : Char) : plainSign c ≠ multiplicationGlyph := by
  unfold plainSign
  split
  · decide
  · assumption

theorem plainSign_of_ne {c : Char} (h : c ≠ multiplicationGlyph) : plainSign c = c := if_neg h

theorem not_mem_map_plainSign (s : List Char) : multiplicationGlyph ∉ s.map plainSign := by
  intro h
  obtain ⟨c, _, hc⟩ := List.mem_map.1 h
  exact plainSign_ne_glyph c hc

theorem map_plainSign_of_not_mem {s : List Char} (h : multiplicationGlyph ∉ s) :
    s.map plainSign = s := by
  induction s with
  | nil => rfl
  | cons c rest ih =>
    simp only [List.mem_cons, not_or] at h
    rw [List.map_cons, plainSign_of_ne (fun e => h.1 e.symm), ih h.2]

end HiddenEquation
