import HiddenEquation.Puzzle

/-!
# Shelves

A shelf holds puzzles in the order in which they came, and beside them an index that leads from a
target to a place on the shelf.  A puzzle is put at the end, and its place noted, unless it has
another length or the index knows its target already.  So the index and the puzzles stay in step.

* `Index` : places by target.
* `Shelf.ofList` : the shelf of a list of puzzles of one length.
* `Shelf.inStep_add` : putting a puzzle on a shelf keeps the index in step.
* `Shelf.inStep_ofList` : the index of a list of puzzles is right about every target and place.
-/

namespace HiddenEquation

/-- Places by target, the last note of a target in front. -/
structure Index where
  notes : List (Int64 × Nat)

namespace Index

/-- No target is known. -/
def empty : Index := ⟨[]⟩

/-- The place that is noted for a target. -/
def get? (x : Index) (target : Int64) : Option Nat := x.notes.lookup target

/-- Whether a place is noted for a target. -/
def contains (x : Index) (target : Int64) : Bool := (x.get? target).isSome

/-- Notes a place for a target, instead of the place noted before. -/
def insert (x : Index) (target : Int64) (place : Nat) : Index := ⟨(target, place) :: x.notes⟩

@[simp] theorem get?_empty (t : Int64) : empty.get? t = none := rfl

theorem get?_insert (x : Index) (t u : Int64) (i : Nat) :
    (x.insert t i).get? u = if u = t then some i else x.get? u := by
  unfold insert get?
  rw [List.lookup_cons]
  by_cases h : u = t
  · rw [if_pos h, beq_iff_eq.2 h]
  · rw [if_neg h, beq_eq_false_iff_ne.2 h]

end Index

/-- Puzzles in the order in which they came, and an index of their places. -/
structure Shelf where
  puzzles : List Puzzle
  byTarget : Index

namespace Shelf

/-- Nothing on it. -/
def empty : Shelf := ⟨[], .empty⟩

/-- Puts a puzzle of the given length at the end.  The length is looked at first and then the
index, and the place that is noted is the number of the puzzles before. -/
def add (length : Nat) (s : Shelf) (p : Puzzle) : Shelf :=
  if p.solution.length ≠ length then s
  else if s.byTarget.contains p.target then s
  else ⟨s.puzzles ++ [p], s.byTarget.insert p.target s.puzzles.length⟩

/-- The shelf of a list of puzzles, put on it one after another. -/
def ofList (length : Nat) (ps : List Puzzle) : Shelf := ps.foldl (add length) empty

/-- The index leads from a target to a place exactly if the puzzle at the place has the target. -/
def InStep (s : Shelf) : Prop :=
  ∀ t i, s.byTarget.get? t = some i ↔ s.puzzles[i]?.map (·.target) = some t

variable {s : Shelf} {t : Int64} {i n : Nat}

/-! ## What the index tells -/

/-- The index leads to a place that there is. -/
theorem InStep.lt_length (h : s.InStep) (hi : s.byTarget.get? t = some i) :
    i < s.puzzles.length := by
  obtain ⟨p, hp, -⟩ := Option.map_eq_some_iff.1 ((h t i).1 hi)
  exact (List.getElem?_eq_some_iff.1 hp).1

/-- The index knows the targets of the puzzles and no others. -/
theorem InStep.contains_iff (h : s.InStep) :
    s.byTarget.contains t = true ↔ ∃ p ∈ s.puzzles, p.target = t := by
  rw [Index.contains, Option.isSome_iff_exists]
  constructor
  · rintro ⟨i, hi⟩
    obtain ⟨p, hp, htarget⟩ := Option.map_eq_some_iff.1 ((h t i).1 hi)
    exact ⟨p, List.mem_of_getElem? hp, htarget⟩
  · rintro ⟨p, hp, htarget⟩
    obtain ⟨i, hi⟩ := List.getElem?_of_mem hp
    exact ⟨i, (h t i).2 (by rw [hi, Option.map_some, htarget])⟩

/-- As the index knows one place for a target, no two puzzles have one target. -/
theorem InStep.nodup_targets (h : s.InStep) : (s.puzzles.map (·.target)).Nodup := by
  have htarget (i : Nat) (hi : i < s.puzzles.length) :
      s.byTarget.get? s.puzzles[i].target = some i :=
    (h _ i).2 (by rw [List.getElem?_eq_getElem hi, Option.map_some])
  rw [List.Nodup, List.pairwise_map, List.pairwise_iff_getElem]
  intro i j hi hj hlt heq
  have hplace : some i = some j := by rw [← htarget i hi, heq, htarget j hj]
  exact absurd (Option.some.inj hplace) (Nat.ne_of_lt hlt)

/-! ## One more puzzle -/

/-- A puzzle of another length is passed over. -/
theorem add_of_length_ne {p : Puzzle} (h : p.solution.length ≠ n) : s.add n p = s := if_pos h

/-- A puzzle is put at the end unless it has another length or a target that is there. -/
theorem InStep.add_eq (h : s.InStep) (n : Nat) (p : Puzzle) :
    s.add n p =
      if p.solution.length = n ∧ ∀ q ∈ s.puzzles, q.target ≠ p.target then
        ⟨s.puzzles ++ [p], s.byTarget.insert p.target s.puzzles.length⟩
      else s := by
  unfold add
  by_cases hlen : p.solution.length = n
  · by_cases hknown : s.byTarget.contains p.target = true
    · obtain ⟨q, hq, htarget⟩ := h.contains_iff.1 hknown
      rw [if_neg (Decidable.not_not.2 hlen), if_pos hknown, if_neg fun hnew => hnew.2 q hq htarget]
    · have hnew : ∀ q ∈ s.puzzles, q.target ≠ p.target :=
        fun q hq htarget => hknown (h.contains_iff.2 ⟨q, hq, htarget⟩)
      rw [if_neg (Decidable.not_not.2 hlen), if_neg hknown, if_pos ⟨hlen, hnew⟩]
  · rw [if_pos hlen, if_neg fun hnew => hlen hnew.1]

/-- **One step.**  A new puzzle is found at the place that is noted for it, and the places of the
others do not change. -/
theorem inStep_add (h : s.InStep) (n : Nat) (p : Puzzle) : (s.add n p).InStep := by
  rw [h.add_eq]
  split
  · rename_i hnew
    intro t i
    rw [Index.get?_insert]
    rcases Nat.lt_trichotomy i s.puzzles.length with hi | rfl | hi
    · -- A place on the old shelf, whose puzzle has another target than the new one.
      rw [List.getElem?_append_left hi, ← h t i]
      by_cases ht : t = p.target
      · have hold : s.byTarget.get? t ≠ some i := by
          rw [Ne, h t i, List.getElem?_eq_getElem hi, Option.map_some, Option.some.injEq, ht]
          exact hnew.2 _ (List.getElem_mem hi)
        rw [if_pos ht]
        exact ⟨fun heq => absurd (Option.some.inj heq) (Nat.ne_of_gt hi),
          fun heq => absurd heq hold⟩
      · rw [if_neg ht]
    · -- The place of the new puzzle.
      have hold : s.byTarget.get? t ≠ some s.puzzles.length :=
        fun heq => Nat.lt_irrefl _ (h.lt_length heq)
      rw [List.getElem?_concat_length, Option.map_some, Option.some.injEq]
      by_cases ht : t = p.target
      · simp [ht]
      · rw [if_neg ht]
        exact ⟨fun heq => absurd heq hold, fun heq => absurd heq.symm ht⟩
    · -- No place.
      have hnone : (s.puzzles ++ [p])[i]? = none := by
        rw [List.getElem?_eq_none_iff, List.length_append, List.length_singleton]
        exact hi
      have hold : s.byTarget.get? t ≠ some i := fun heq => Nat.lt_asymm hi (h.lt_length heq)
      rw [hnone]
      split
      · simp [Nat.ne_of_lt hi]
      · simpa using hold
  · exact h

theorem inStep_empty : empty.InStep := fun t i => by simp [empty]

/-- What is kept when a puzzle is put on a shelf holds of the shelf of every list. -/
theorem ofList_induction {P : Shelf → Prop} (n : Nat) (hempty : P empty)
    (hadd : ∀ s p, P s → P (s.add n p)) (ps : List Puzzle) : P (ofList n ps) := by
  have hrun (s : Shelf) (hs : P s) : P (ps.foldl (add n) s) := by
    induction ps generalizing s with
    | nil => exact hs
    | cons p ps ih => exact ih (s.add n p) (hadd s p hs)
  exact hrun empty hempty

/-- **The whole run.**  The index of the shelf of a list is in step with its puzzles. -/
theorem inStep_ofList (n : Nat) (ps : List Puzzle) : (ofList n ps).InStep :=
  ofList_induction n inStep_empty (fun _ p h => inStep_add h n p) ps

/-- Every puzzle on the shelf has the length asked for. -/
theorem sized_ofList (n : Nat) (ps : List Puzzle) :
    ∀ p ∈ (ofList n ps).puzzles, p.solution.length = n := by
  refine ofList_induction (P := fun s => ∀ p ∈ s.puzzles, p.solution.length = n) n
    (fun p hp => absurd hp List.not_mem_nil) (fun s p hs q hq => ?_) ps
  unfold add at hq
  split at hq
  · exact hs q hq
  · rename_i hlen
    split at hq
    · exact hs q hq
    · rcases List.mem_append.1 hq with hq | hq
      · exact hs q hq
      · exact List.mem_singleton.1 hq ▸ Decidable.not_not.1 hlen

end Shelf

end HiddenEquation
