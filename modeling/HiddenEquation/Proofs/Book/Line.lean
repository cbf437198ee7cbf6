import HiddenEquation.Proofs.Book.Table
import HiddenEquation.Proofs.Except
import HiddenEquation.Proofs.Text.Trim

/-!
# Solutions fit on a line

The solution of an entry is a field of a line, trimmed, with its signs replaced.  Trimming a second
time takes nothing away, signs are no blanks, and there is no break inside a line; so the solutions
in a file are texts that can be entered as a line without a loss.

* `Text.fitsLine_map_plainSign_trim` : a trimmed field, its signs replaced.
* `Entry.readFields_eq_ok_iff` : which fields make a puzzle.
* `Book.fitsLine_solution` : the solutions in a file.
-/

namespace HiddenEquation

namespace Text

/-! ## Texts that fit on a line -/

/-- A text that comes out as it is when it is entered as a line. -/
structure FitsLine (s : List Char) : Prop where
  unbroken : '\n' ∉ s
  trim_eq : trim s = s

theorem isBlank_plainSign (c : Char) : isBlank (plainSign c) = isBlank c := by
  unfold plainSign
  split
  · rename_i hglyph
    rw [hglyph]
    rfl
  · rfl

theorem plainSign_ne_break {c : Char} (h : c ≠ '\n') : plainSign c ≠ '\n' := by
  unfold plainSign
  split
  · decide
  · exact h

/-- A trimmed part of a line fits on a line, also after its signs have been replaced. -/
theorem fitsLine_map_plainSign_trim {s : List Char} (h : '\n' ∉ s) :
    FitsLine ((trim s).map plainSign) where
  unbroken := by
    intro hmem
    obtain ⟨c, hc, hbreak⟩ := List.mem_map.1 hmem
    exact plainSign_ne_break (fun heq => h (heq ▸ mem_of_mem_trim hc)) hbreak
  trim_eq := by rw [trim_map isBlank_plainSign, trim_trim]

end Text

/-! ## Entries and files -/

namespace Entry

variable {p : Puzzle}

theorem chars_of_readSolution {s : List Char} {sol : Solution} (h : readSolution s = .ok sol) :
    sol.chars = s.map plainSign := by
  unfold readSolution at h
  split at h
  · rename_i hsol
    cases h
    exact Solution.chars_ofChars? hsol
  · cases h

/-- An entry is a puzzle if its three fields are the parts of the puzzle. -/
theorem readFields_eq_ok_iff {fields : List (List Char)} : readFields fields = .ok p ↔
    ∃ t s d, fields = [t, s, d] ∧ readTarget (Text.trim t) = .ok p.target ∧
      readSolution (Text.trim s) = .ok p.solution ∧
      readDifficulty (Text.trim d) = .ok p.difficulty := by
  constructor
  · intro h
    unfold readFields at h
    split at h
    · rename_i t s d
      obtain ⟨target, ht, h⟩ := Except.bind_eq_ok_iff.1 h
      obtain ⟨solution, hs, h⟩ := Except.bind_eq_ok_iff.1 h
      obtain ⟨difficulty, hd, h⟩ := Except.bind_eq_ok_iff.1 h
      cases h
      exact ⟨t, s, d, rfl, ht, hs, hd⟩
    · cases h
  · rintro ⟨t, s, d, rfl, ht, hs, hd⟩
    rw [readFields, ht, hs, hd]
    rfl

theorem read_eq_ok_iff {entry : List Char} :
    read entry = .ok p ↔ readFields (Text.pieces ':' (Text.trim entry)) = .ok p := by
  unfold read
  split
  · rename_i h
    simp [h]
  · rename_i h
    simp [h]

/-- The solution of an entry without a break fits on a line. -/
theorem fitsLine_of_read {entry : List Char} (h : read entry = .ok p) (hbreak : '\n' ∉ entry) :
    Text.FitsLine p.solution.chars := by
  obtain ⟨t, s, d, hfields, -, hsol, -⟩ := readFields_eq_ok_iff.1 (read_eq_ok_iff.1 h)
  have hmem : s ∈ Text.pieces ':' (Text.trim entry) := by
    rw [hfields]
    exact List.mem_cons_of_mem t List.mem_cons_self
  rw [chars_of_readSolution hsol]
  exact Text.fitsLine_map_plainSign_trim fun hc =>
    hbreak (Text.mem_of_mem_trim (Text.mem_of_mem_pieces hc hmem))

/-- Every puzzle that some lines describe is read from one of them. -/
theorem exists_line_of_mem_puzzles {lines : List (List Char)} (h : p ∈ puzzles lines) :
    ∃ line ∈ lines, read (Text.trim line) = .ok p := by
  obtain ⟨entry, hentry, hread⟩ := List.mem_filterMap.1 h
  obtain ⟨line, hline, rfl⟩ := List.mem_map.1 (List.mem_of_mem_filter hentry)
  refine ⟨line, hline, ?_⟩
  cases hr : read (Text.trim line) with
  | error e =>
    rw [hr] at hread
    cases hread
  | ok q =>
    rw [hr] at hread
    exact congrArg Except.ok (Option.some.inj hread)

end Entry

namespace Book

variable {b : Book} {p : Puzzle} {n : ℕ}

/-- A book holds only puzzles of the list it is made of. -/
theorem mem_of_ofPuzzles {ps : List Puzzle} (h : ofPuzzles ps n = .ok b) (hp : p ∈ b.puzzles) :
    p ∈ ps := by
  unfold ofPuzzles at h
  split at h
  · cases h
  · cases h
    exact Shelf.mem_of_mem_ofList hp

/-- **The solutions in a file** fit on a line. -/
theorem fitsLine_solution {content : FileContent} (h : ofFile content n = .ok b)
    (hp : p ∈ b.puzzles) : Text.FitsLine p.solution.chars := by
  unfold ofFile at h
  split at h
  · rename_i lines hlines
    obtain ⟨line, hline, hread⟩ := Entry.exists_line_of_mem_puzzles (mem_of_ofPuzzles h hp)
    refine Entry.fitsLine_of_read hread fun hbreak => ?_
    have hunbroken : '\n' ∉ line := by
      unfold linesOfFile at hlines
      split at hlines
      · cases hlines
      · split at hlines
        · cases hlines
          exact Text.not_mem_of_mem_terminated hline
        · cases hlines
    exact hunbroken (Text.mem_of_mem_trim hbreak)
  · cases h

end Book

end HiddenEquation
