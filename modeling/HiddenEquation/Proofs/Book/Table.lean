import HiddenEquation.Book
import HiddenEquation.Proofs.Text.Lines
import Mathlib.Data.List.Induction

/-!
# A book is the first-wins table of its usable puzzles

A list of puzzles is gone through from the front.  A puzzle of another length is passed over, and
so is one whose target a usable puzzle before it has; `Shelf.puzzles_ofList_concat` is that one
step, and what a book holds and finds follows from it for lists of any length.  That the index is
right after every step is `Shelf.inStep_add`.

* `Shelf.puzzles_ofList_concat` : what one more puzzle at the end of the list adds.
* `Shelf.puzzles_ofList_eq_filter` : the puzzles on a shelf, by their places in the list.
* `Shelf.find?_puzzles_ofList` : searching the shelf for a target is searching the list for it.
* `Book.ofPuzzles_isTable` : when there is a book, what it holds and what it finds.
-/

namespace HiddenEquation

variable {ps : List Puzzle} {n : Nat}

/-- A puzzle that no usable puzzle in front of it has the target of. -/
def Book.IsNew (n : Nat) (before : List Puzzle) (p : Puzzle) : Prop :=
  p.solution.length = n ∧ ∀ q ∈ before, q.solution.length = n → q.target ≠ p.target

instance (n : Nat) (before : List Puzzle) (p : Puzzle) : Decidable (Book.IsNew n before p) :=
  inferInstanceAs (Decidable (_ ∧ _))

namespace Shelf

open Book (IsNew)

/-! ## The puzzles on a shelf -/

theorem ofList_concat (n : Nat) (ps : List Puzzle) (p : Puzzle) :
    ofList n (ps ++ [p]) = (ofList n ps).add n p := by
  rw [ofList, List.foldl_append, List.foldl_cons, List.foldl_nil, ofList]

/-- The targets on the shelf are those of the puzzles of the right length. -/
theorem exists_mem_ofList_iff (ps : List Puzzle) (n : Nat) (t : Int64) :
    (∃ q ∈ (ofList n ps).puzzles, q.target = t) ↔
      ∃ q ∈ ps, q.solution.length = n ∧ q.target = t := by
  induction ps using List.reverseRecOn with
  | nil => simp [ofList, empty]
  | append_singleton ps p ih =>
    have hsplit : (∃ q ∈ ps ++ [p], q.solution.length = n ∧ q.target = t) ↔
        (∃ q ∈ ps, q.solution.length = n ∧ q.target = t) ∨
          (p.solution.length = n ∧ p.target = t) := by
      simp only [List.mem_append, List.mem_singleton, or_and_right, exists_or, exists_eq_left]
    rw [hsplit, ofList_concat, (inStep_ofList n ps).add_eq, ← ih]
    split
    · rename_i hnew
      simp [or_and_right, exists_or, hnew.1]
    · rename_i hold
      refine ⟨Or.inl, ?_⟩
      rintro (hthere | ⟨hlen, htarget⟩)
      · exact hthere
      · -- A puzzle of the right length is passed over only if its target is there.
        by_contra habsent
        exact hold ⟨hlen, fun q hq heq => habsent ⟨q, hq, heq.trans htarget⟩⟩

/-- **One step through the list.**  The length is looked at first and the target then, so a puzzle
of another length does not stand in the way of a later one. -/
theorem puzzles_ofList_concat (ps : List Puzzle) (n : Nat) (p : Puzzle) :
    (ofList n (ps ++ [p])).puzzles =
      (ofList n ps).puzzles ++ if IsNew n ps p then [p] else [] := by
  have hnew : (p.solution.length = n ∧ ∀ q ∈ (ofList n ps).puzzles, q.target ≠ p.target) ↔
      IsNew n ps p := by
    have htargets := not_congr (exists_mem_ofList_iff ps n p.target)
    push Not at htargets
    rw [IsNew, htargets]
  rw [ofList_concat, (inStep_ofList n ps).add_eq]
  simp only [hnew]
  split
  · rfl
  · rw [List.append_nil]

/-- **The puzzles on the shelf of a list**, in the order of the list: those of the right length
whose target no puzzle of the right length at an earlier place has. -/
theorem puzzles_ofList_eq_filter (ps : List Puzzle) (n : Nat) :
    (ofList n ps).puzzles =
      (ps.zipIdx.filter fun x => decide (IsNew n (ps.take x.2) x.1)).map Prod.fst := by
  induction ps using List.reverseRecOn with
  | nil => rfl
  | append_singleton ps p ih =>
    have hbefore : ps.zipIdx.filter (fun x => decide (IsNew n ((ps ++ [p]).take x.2) x.1)) =
        ps.zipIdx.filter fun x => decide (IsNew n (ps.take x.2) x.1) := by
      apply List.filter_congr
      intro x hx
      have hlt : x.2 < ps.length := (List.mem_zipIdx' hx).1
      rw [List.take_append_of_le_length (Nat.le_of_lt hlt)]
    rw [puzzles_ofList_concat, ih, List.zipIdx_append, List.filter_append, List.map_append, hbefore]
    congr 1
    by_cases hnew : IsNew n ps p <;> simp [hnew]

/-- The puzzles on the shelf of a list are puzzles of the list. -/
theorem mem_of_mem_ofList {p : Puzzle} (h : p ∈ (ofList n ps).puzzles) : p ∈ ps := by
  rw [puzzles_ofList_eq_filter] at h
  obtain ⟨x, hx, rfl⟩ := List.mem_map.1 h
  rw [(List.mem_zipIdx' (List.mem_filter.1 hx).1).2]
  exact List.getElem_mem _

/-- There is nothing on the shelf exactly if no puzzle has the right length. -/
theorem puzzles_ofList_eq_nil_iff :
    (ofList n ps).puzzles = [] ↔ ∀ p ∈ ps, p.solution.length ≠ n := by
  constructor
  · intro hnil p hp hlen
    obtain ⟨q, hq, -⟩ := (exists_mem_ofList_iff ps n p.target).2 ⟨p, hp, hlen, rfl⟩
    rw [hnil] at hq
    exact absurd hq List.not_mem_nil
  · intro h
    refine List.eq_nil_iff_forall_not_mem.2 fun q hq => ?_
    exact h q (mem_of_mem_ofList hq) (sized_ofList n ps q hq)

/-- A puzzle of another length might as well not be there. -/
theorem ofList_append_cons_of_length_ne {p : Puzzle} (h : p.solution.length ≠ n)
    (before after : List Puzzle) :
    ofList n (before ++ p :: after) = ofList n (before ++ after) := by
  rw [ofList, ofList, List.foldl_append, List.foldl_cons, add_of_length_ne h, List.foldl_append]

/-! ## Looking a target up -/

/-- **Searching the shelf** for a target finds the first puzzle of the list that has the target and
the right length. -/
theorem find?_puzzles_ofList (ps : List Puzzle) (n : Nat) (t : Int64) :
    ((ofList n ps).puzzles.find? fun p => decide (p.target = t)) =
      ps.find? fun p => decide (p.target = t ∧ p.solution.length = n) := by
  induction ps using List.reverseRecOn with
  | nil => rfl
  | append_singleton ps p ih =>
    rw [puzzles_ofList_concat, List.find?_append, List.find?_append, ih]
    cases hfound : ps.find? fun p => decide (p.target = t ∧ p.solution.length = n) with
    | some q => rfl
    | none =>
      -- No puzzle so far has the target, so `p` is new if it has target and length.
      have habsent : ∀ q ∈ ps, q.target = t → q.solution.length ≠ n := by
        simpa using hfound
      by_cases hp : p.target = t ∧ p.solution.length = n
      · have hnew : IsNew n ps p :=
          ⟨hp.2, fun q hq hlen heq => habsent q hq (heq.trans hp.1) hlen⟩
        simp [hnew, hp]
      · by_cases hnew : IsNew n ps p
        · have hne : p.target ≠ t := fun heq => hp ⟨heq, hnew.1⟩
          simp [hnew, hne]
        · have hcond : p.target = t → p.solution.length ≠ n := fun heq hlen => hp ⟨heq, hlen⟩
          simpa [hnew] using hcond

end Shelf

namespace Book

/-- What a book of a list of puzzles holds, where its index leads, and what it finds. -/
structure IsTable (b : Book) (ps : List Puzzle) (n : Nat) : Prop where
  length : b.length = n
  puzzles : b.puzzles =
    (ps.zipIdx.filter fun x => decide (IsNew n (ps.take x.2) x.1)).map Prod.fst
  distinct : (b.puzzles.map (·.target)).Nodup
  places : ∀ t i, b.byTarget.get? t = some i ↔ b.puzzles[i]?.map (·.target) = some t
  get? : ∀ t, b.get? t = ps.find? fun p => decide (p.target = t ∧ p.solution.length = n)
  find : ∀ t, b.find t =
    match ps.find? fun p => decide (p.target = t ∧ p.solution.length = n) with
    | some p => .ok p
    | none => .error (.unknownTarget t)

theorem isTable_ofList (h : (Shelf.ofList n ps).puzzles ≠ []) : (ofList n ps h).IsTable ps n := by
  have hget (t : Int64) : (ofList n ps h).get? t =
      ps.find? fun p => decide (p.target = t ∧ p.solution.length = n) := by
    rw [get?_eq_find?, ofList, Shelf.find?_puzzles_ofList]
  refine ⟨rfl, Shelf.puzzles_ofList_eq_filter ps n, distinct _, inStep _, hget, fun t => ?_⟩
  exact congrArg (fun found : Option Puzzle => (match found with
    | some p => .ok p
    | none => .error (.unknownTarget t) : Except CheckError Puzzle)) (hget t)

end Book

/-! ## Lines -/

/-- The puzzles that lines describe: each line is trimmed, blank lines and comments are left out,
and so is what is no puzzle. -/
theorem Entry.puzzles_eq (lines : List (List Char)) :
    puzzles lines =
      ((lines.map Text.trim).filter fun l => decide (l ≠ [] ∧ l.head? ≠ some '#')).filterMap
        fun l => (read l).toOption := by
  have hentry : isEntry = fun l => decide (l ≠ [] ∧ l.head? ≠ some '#') := by
    funext l
    cases l with
    | nil => rfl
    | cons c rest => by_cases hc : c = '#' <;> simp [isEntry, hc]
  rw [puzzles, ofLines, hentry]

/-- A line that is refused might as well not be there. -/
theorem Entry.puzzles_append_cons_of_error {line : List Char} {e : EntryError}
    (h : read (Text.trim line) = .error e) (before after : List (List Char)) :
    puzzles (before ++ line :: after) = puzzles (before ++ after) := by
  have hnone : (read (Text.trim line)).toOption = none := by rw [h]; rfl
  rw [puzzles_eq, puzzles_eq, List.map_append, List.map_cons, List.map_append, List.filter_append,
    List.filter_append, List.filterMap_append, List.filterMap_append]
  congr 1
  rw [List.filter_cons]
  split
  · exact List.filterMap_cons_none hnone
  · rfl

namespace Book

/-- **A book is the first-wins table of its usable puzzles.**  There is none exactly if no puzzle
has the right length; else it holds the usable puzzles in their order, each target once, its index
leads to their places, and it finds the first of them.  A puzzle of another length hides none behind
it.  The book of some lines, or of the lines of a file, is that of the puzzles its entries describe,
and a refused entry leaves the others as they are. -/
theorem ofPuzzles_isTable (n : Nat) :
    (∀ ps, ofPuzzles ps n = .error .noPuzzles ↔ ∀ p ∈ ps, p.solution.length ≠ n) ∧
    (∀ ps, (∃ p ∈ ps, p.solution.length = n) → ∃ b, ofPuzzles ps n = .ok b ∧ b.IsTable ps n) ∧
    (∀ before p after, p.solution.length ≠ n →
      ofPuzzles (before ++ p :: after) n = ofPuzzles (before ++ after) n) ∧
    (∀ lines, ofLines lines n = ofPuzzles
      (((lines.map Text.trim).filter fun l => decide (l ≠ [] ∧ l.head? ≠ some '#')).filterMap
        fun l => (Entry.read l).toOption) n) ∧
    (∀ bytes text, String.fromUTF8? bytes = some text →
      ∃ lines, Text.IsLines '\n' text.toList lines ∧ ofFile (.ok bytes) n = ofLines lines n) ∧
    (∀ before line after e, Entry.read (Text.trim line) = .error e →
      ofLines (before ++ line :: after) n = ofLines (before ++ after) n) := by
  refine ⟨fun ps => ?_, fun ps => ?_, fun before p after h => ?_, fun lines => ?_, ?_, ?_⟩
  · rw [ofPuzzles_eq_error_iff, Shelf.puzzles_ofList_eq_nil_iff]
    simp
  · rintro ⟨p, hp, hlen⟩
    have hne : (Shelf.ofList n ps).puzzles ≠ [] :=
      fun hnil => Shelf.puzzles_ofList_eq_nil_iff.1 hnil p hp hlen
    exact ⟨_, ofPuzzles_eq_ok hne, isTable_ofList hne⟩
  · simp only [ofPuzzles, ofList, Shelf.ofList_append_cons_of_length_ne h]
  · rw [ofLines, Entry.puzzles_eq]
  · intro bytes text htext
    refine ⟨_, Text.isLines_terminated '\n' text.toList, ?_⟩
    simp only [ofFile, linesOfFile, htext]
  · intro before line after e h
    rw [ofLines, ofLines, Entry.puzzles_append_cons_of_error h]

end Book

end HiddenEquation
