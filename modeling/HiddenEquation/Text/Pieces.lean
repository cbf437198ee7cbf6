/-!
# Pieces of a text

Cutting a list at every occurrence of a separator: fields of an entry, lines of a file,
lines typed at a prompt.

* `pieces_ne_nil` : there is always at least one piece.
* `not_mem_of_mem_pieces` : no piece contains the separator.
* `intercalate_pieces` : joining the pieces with the separator gives the list back.
-/

namespace HiddenEquation.Text

variable {α : Type} [DecidableEq α]

/-- The maximal stretches between separators, in order, empty ones included. -/
def pieces (sep : α) : List α → List (List α)
  | [] => [[]]
  | c :: rest =>
    if c = sep then [] :: pieces sep rest
    else
      match pieces sep rest with
      | [] => [[c]]
      | p :: ps => (c :: p) :: ps

/-- The stretches that a terminator ends, and the last stretch too unless it is empty. -/
def terminated (stop : α) (s : List α) : List (List α) :=
  let ps := pieces stop s
  if ps.getLast? = some [] then ps.dropLast else ps

theorem pieces_ne_nil (sep : α) (s : List α) : pieces sep s ≠ [] := by
  cases s with
  | nil => simp [pieces]
  | cons c rest =>
    rw [pieces]
    split
    · simp
    · split <;> simp

/-- No piece contains the separator. -/
theorem not_mem_of_mem_pieces {sep : α} {s p : List α} (h : p ∈ pieces sep s) : sep ∉ p := by
  induction s generalizing p with
  | nil => simp [pieces] at h; simp [h]
  | cons c rest ih =>
    rw [pieces] at h
    split at h
    · rcases List.mem_cons.1 h with rfl | h
      · simp
      · exact ih h
    · rename_i hc
      split at h
      · rename_i hnil
        exact absurd hnil (pieces_ne_nil sep rest)
      · rename_i q qs hq
        rcases List.mem_cons.1 h with rfl | h
        · have hq' : sep ∉ q := ih (by rw [hq]; simp)
          simp only [List.mem_cons, not_or]
          exact ⟨fun e => hc e.symm, hq'⟩
        · exact ih (by rw [hq]; exact List.mem_cons_of_mem _ h)

/-- Joining the pieces with the separator gives the list back. -/
theorem intercalate_pieces (sep : α) (s : List α) : [sep].intercalate (pieces sep s) = s := by
  induction s with
  | nil => simp [pieces, List.intercalate]
  | cons c rest ih =>
    rw [pieces]
    cases hq : pieces sep rest with
    | nil => exact absurd hq (pieces_ne_nil sep rest)
    | cons q qs =>
      rw [hq] at ih
      split
      · rename_i hc
        subst hc
        rw [← ih]
        simp [List.intercalate, List.intersperse]
      · cases qs with
        | nil => simp_all [List.intercalate, List.intersperse]
        | cons r rs => simp_all [List.intercalate, List.intersperse]

end HiddenEquation.Text
