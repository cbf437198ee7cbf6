import HiddenEquation.Text.Pieces

/-!
# Cutting at a separator

A stretch without a separator goes in front of the first piece of what follows it, and a separator
ends a piece.  So the pieces of a text are the only texts without a separator that give the text
when they are joined, and there is one more of them than there are separators.

* `Text.pieces_append`, `Text.pieces_append_cons` : cutting what follows a stretch.
* `Text.pieces_eq_iff` : the pieces of a text, by what they have to be.
* `Text.length_pieces` : their number.
* `Text.pieces_flatMap` : cutting what is written out.
-/

namespace HiddenEquation.Text

variable {α β : Type} [DecidableEq α] [DecidableEq β]

theorem pieces_cons_self (sep : α) (s : List α) : pieces sep (sep :: s) = [] :: pieces sep s := by
  rw [pieces, if_pos rfl]

theorem pieces_cons_of_ne {c sep : α} (h : c ≠ sep) (s : List α) :
    pieces sep (c :: s) = (pieces sep s).modifyHead (c :: ·) := by
  rw [pieces, if_neg h]
  cases hs : pieces sep s with
  | nil => exact absurd hs (pieces_ne_nil sep s)
  | cons p ps => rfl

/-- A stretch without a separator goes in front of the first piece. -/
theorem pieces_append {sep : α} {u : List α} (h : sep ∉ u) (s : List α) :
    pieces sep (u ++ s) = (pieces sep s).modifyHead (u ++ ·) := by
  induction u with
  | nil =>
    cases hs : pieces sep s with
    | nil => exact absurd hs (pieces_ne_nil sep s)
    | cons p ps => rw [List.nil_append, hs, List.modifyHead_cons, List.nil_append]
  | cons c u ih =>
    rw [List.mem_cons, not_or] at h
    rw [List.cons_append, pieces_cons_of_ne (Ne.symm h.1), ih h.2, List.modifyHead_modifyHead]
    rfl

/-- Without a separator there is one piece. -/
theorem pieces_of_not_mem {sep : α} {u : List α} (h : sep ∉ u) : pieces sep u = [u] := by
  rw [← List.append_nil u, pieces_append h, pieces, List.modifyHead_cons]

/-- A separator ends a piece. -/
theorem pieces_append_cons (sep : α) (u s : List α) :
    pieces sep (u ++ sep :: s) = pieces sep u ++ pieces sep s := by
  induction u with
  | nil => rw [List.nil_append, pieces_cons_self, pieces, List.singleton_append]
  | cons c u ih =>
    rw [List.cons_append]
    by_cases hc : c = sep
    · rw [hc, pieces_cons_self, pieces_cons_self, ih, List.cons_append]
    · rw [pieces_cons_of_ne hc, pieces_cons_of_ne hc, ih]
      cases hu : pieces sep u with
      | nil => exact absurd hu (pieces_ne_nil sep u)
      | cons p ps => rfl

/-- A piece consists of elements of the text. -/
theorem mem_of_mem_pieces {sep c : α} {s p : List α} (hc : c ∈ p) (hp : p ∈ pieces sep s) :
    c ∈ s := by
  induction s generalizing p with
  | nil =>
    rw [pieces, List.mem_singleton] at hp
    exact hp ▸ hc
  | cons d s ih =>
    by_cases hd : d = sep
    · rw [hd, pieces_cons_self] at hp
      rcases List.mem_cons.1 hp with rfl | hp
      · exact absurd hc List.not_mem_nil
      · exact List.mem_cons_of_mem d (ih hc hp)
    · rw [pieces_cons_of_ne hd] at hp
      cases hs : pieces sep s with
      | nil => exact absurd hs (pieces_ne_nil sep s)
      | cons q qs =>
        rw [hs] at ih hp
        rcases List.mem_cons.1 hp with rfl | hp
        · rcases List.mem_cons.1 hc with rfl | hc
          · exact List.mem_cons_self
          · exact List.mem_cons_of_mem d (ih hc List.mem_cons_self)
        · exact List.mem_cons_of_mem d (ih hc (List.mem_cons_of_mem q hp))

/-- Cutting a text commutes with writing its elements out, if the separator alone is written with
the separator. -/
theorem pieces_flatMap {f : β → List α} {sep : β} {stop : α} (hsep : f sep = [stop])
    (hother : ∀ b, b ≠ sep → stop ∉ f b) (s : List β) :
    pieces stop (s.flatMap f) = (pieces sep s).map fun p => p.flatMap f := by
  induction s with
  | nil => rfl
  | cons b s ih =>
    rw [List.flatMap_cons]
    by_cases hb : b = sep
    · rw [hb, hsep, List.singleton_append, pieces_cons_self, pieces_cons_self, ih, List.map_cons,
        List.flatMap_nil]
    · rw [pieces_append (hother b hb), pieces_cons_of_ne hb, ih]
      cases hs : pieces sep s with
      | nil => exact absurd hs (pieces_ne_nil sep s)
      | cons p ps => simp only [List.map_cons, List.modifyHead_cons, List.flatMap_cons]

/-! ## What the pieces are -/

/-- Pieces without a separator that are joined are found again. -/
theorem pieces_intercalate {sep : α} {ps : List (List α)} (hne : ps ≠ []) (h : ∀ p ∈ ps, sep ∉ p) :
    pieces sep ([sep].intercalate ps) = ps := by
  induction ps with
  | nil => exact absurd rfl hne
  | cons p ps ih =>
    rw [List.forall_mem_cons] at h
    cases ps with
    | nil => rw [List.intercalate_singleton, pieces_of_not_mem h.1]
    | cons q qs =>
      have hjoined :
          [sep].intercalate (p :: q :: qs) = p ++ sep :: [sep].intercalate (q :: qs) := by
        rw [List.intercalate_cons_cons, List.append_assoc, List.singleton_append]
      rw [hjoined, pieces_append_cons, pieces_of_not_mem h.1, ih (List.cons_ne_nil q qs) h.2,
        List.singleton_append]

/-- **The pieces of a text** are the texts without a separator, at least one, that give it when they
are joined. -/
theorem pieces_eq_iff {sep : α} {s : List α} {ps : List (List α)} :
    pieces sep s = ps ↔ ps ≠ [] ∧ (∀ p ∈ ps, sep ∉ p) ∧ [sep].intercalate ps = s := by
  constructor
  · rintro rfl
    exact ⟨pieces_ne_nil sep s, fun p hp => not_mem_of_mem_pieces hp, intercalate_pieces sep s⟩
  · rintro ⟨hne, h, rfl⟩
    exact pieces_intercalate hne h

/-- There is one piece more than there are separators. -/
theorem length_pieces (sep : α) (s : List α) : (pieces sep s).length = s.count sep + 1 := by
  induction s with
  | nil => rfl
  | cons c s ih =>
    by_cases hc : c = sep
    · rw [hc, pieces_cons_self, List.length_cons, ih, List.count_cons_self]
    · rw [pieces_cons_of_ne hc, List.length_modifyHead, ih, List.count_cons_of_ne hc]

end HiddenEquation.Text
