import HiddenEquation.Check
import HiddenEquation.Entry
import HiddenEquation.Shelf

/-!
# Puzzle books

A book is a shelf of puzzles of one length, at least one, with an index that is in step with
them; so no two of them have the same target.  It is built from a list puzzle by puzzle: a
puzzle of another length is dropped first, and then one whose target the index knows, so a
puzzle of the wrong length never hides a later one.

* `Book.ofPuzzles` : the book of a list of puzzles.
* `Book.get?` : the puzzle at the place that the index has for a target.
* `Book.get?_eq_some_iff` : it is the puzzle with that target.
-/

namespace HiddenEquation

/-- Why a guess is not checked at all. -/
inductive CheckError where
  | unknownTarget (target : Int64)
  | lengthMismatch (mismatch : LengthMismatch)
deriving DecidableEq

/-- The wording of a refusal. -/
def CheckError.message : CheckError → String
  | .unknownTarget t => s!"No puzzle configured for target value {t.toInt}"
  | .lengthMismatch m => s!"Guess has {m.found} characters, expected {m.expected}"

/-- Why a file of puzzles cannot be read. -/
inductive FileFault where
  | notFound
  | denied
  | notDirectory
  | isDirectory
  | nameTooLong
  | notText
deriving DecidableEq, Repr

/-- The wording of a file fault. -/
def FileFault.message : FileFault → String
  | .notFound => "No such file or directory (os error 2)"
  | .denied => "Permission denied (os error 13)"
  | .notDirectory => "Not a directory (os error 20)"
  | .isDirectory => "Is a directory (os error 21)"
  | .nameTooLong => "File name too long (os error 36)"
  | .notText => "stream did not contain valid UTF-8"

/-- Why there is no book. -/
inductive BookError where
  | noPuzzles
  | file (fault : FileFault)
deriving DecidableEq, Repr

/-- The wording of a missing book. -/
def BookError.message : BookError → String
  | .noPuzzles => "No puzzles configured"
  | .file f => s!"Failed to read puzzle file: {f.message}"

/-- A shelf of puzzles of one length, at least one, with its index in step. -/
structure Book extends Shelf where
  length : Nat
  nonempty : puzzles ≠ []
  sized : ∀ p ∈ puzzles, p.solution.length = length
  inStep : toShelf.InStep

namespace Book

/-- The length of an equation where none is asked for. -/
def defaultLength : Nat := 8

/-- The book of a list of puzzles of which at least one can be put on a shelf. -/
def ofList (length : Nat) (ps : List Puzzle) (h : (Shelf.ofList length ps).puzzles ≠ []) : Book :=
  { Shelf.ofList length ps with
    length := length
    nonempty := h
    sized := Shelf.sized_ofList length ps
    inStep := Shelf.inStep_ofList length ps }

/-- The book of a list of puzzles. -/
def ofPuzzles (ps : List Puzzle) (length : Nat) : Except BookError Book :=
  if h : (Shelf.ofList length ps).puzzles = [] then .error .noPuzzles
  else .ok (ofList length ps h)

/-- The book of the entries among the given lines. -/
def ofLines (lines : List (List Char)) (length : Nat) : Except BookError Book :=
  ofPuzzles (Entry.puzzles lines) length

/-- What is found in the place of a file. -/
abbrev FileContent := Except FileFault ByteArray

/-- The lines of a file, which must be text. -/
def linesOfFile : FileContent → Except BookError (List (List Char))
  | .error f => .error (.file f)
  | .ok bytes =>
    match String.fromUTF8? bytes with
    | some text => .ok (Text.terminated '\n' text.toList)
    | none => .error (.file .notText)

/-- The book that a file describes, one entry to a line. -/
def ofFile (content : FileContent) (length : Nat) : Except BookError Book :=
  match linesOfFile content with
  | .ok lines => ofLines lines length
  | .error e => .error e

/-- The table that is always there. -/
def table : List String :=
  ["100:12+34+54:1", "20:10+5+2+3:1", "42:21*2+0*9:2", "64:60+8/2*1:2", "81:9*9+0*12:2",
   "7:56/8+0*1:3", "12:99/9+1*1:3"]

/-- The lines of the table. -/
def tableLines : List (List Char) := table.map String.toList

/-- The book of the table. -/
def embedded (length : Nat) : Except BookError Book := ofLines tableLines length

/-- The number of puzzles. -/
def size (b : Book) : Nat := b.puzzles.length

/-- The puzzle with the given target, at the place that the index has for it. -/
def get? (b : Book) (target : Int64) : Option Puzzle :=
  match h : b.byTarget.get? target with
  | some i => some (b.puzzles.get ⟨i, b.inStep.lt_length h⟩)
  | none => none

/-- The puzzle with the given target, which must be there. -/
def find (b : Book) (target : Int64) : Except CheckError Puzzle :=
  match b.get? target with
  | some p => .ok p
  | none => .error (.unknownTarget target)

/-- Checks a guess for the puzzle with the given target. -/
def check (b : Book) (guess : Guess) (target : Int64) : Except CheckError Verdict :=
  match b.find target with
  | .error e => .error e
  | .ok p =>
    match checkGuess guess target p.solution with
    | .ok v => .ok v
    | .error m => .error (.lengthMismatch m)

/-- No two puzzles of a book have one target. -/
theorem distinct (b : Book) : (b.puzzles.map (·.target)).Nodup := b.inStep.nodup_targets

theorem ofPuzzles_eq_error_iff {ps : List Puzzle} {length : Nat} {e : BookError} :
    ofPuzzles ps length = .error e ↔ (Shelf.ofList length ps).puzzles = [] ∧ e = .noPuzzles := by
  unfold ofPuzzles
  split
  · rename_i h
    simp [h, eq_comm]
  · rename_i h
    simp [h]

/-- The puzzles of a list make a book if any can be put on a shelf. -/
theorem ofPuzzles_eq_ok {ps : List Puzzle} {length : Nat}
    (h : (Shelf.ofList length ps).puzzles ≠ []) : ofPuzzles ps length = .ok (ofList length ps h) :=
  dif_neg h

variable {b : Book} {p : Puzzle} {t : Int64}

theorem get?_eq_bind (b : Book) (t : Int64) :
    b.get? t = (b.byTarget.get? t).bind fun i => b.puzzles[i]? := by
  unfold get?
  split
  · rename_i i hi
    simp only [hi, Option.bind_some, List.get_eq_getElem,
      List.getElem?_eq_getElem (b.inStep.lt_length hi)]
  · rename_i hnone
    rw [hnone, Option.bind_none]

/-- **Looking a target up** finds the puzzle with the target. -/
theorem get?_eq_some_iff : b.get? t = some p ↔ p ∈ b.puzzles ∧ p.target = t := by
  rw [get?_eq_bind, Option.bind_eq_some_iff]
  constructor
  · rintro ⟨i, hi, hp⟩
    have htarget := (b.inStep t i).1 hi
    rw [hp] at htarget
    exact ⟨List.mem_of_getElem? hp, Option.some.inj htarget⟩
  · rintro ⟨hp, htarget⟩
    obtain ⟨i, hi⟩ := List.getElem?_of_mem hp
    exact ⟨i, (b.inStep t i).2 (by rw [hi, Option.map_some, htarget]), hi⟩

theorem get?_of_mem (h : p ∈ b.puzzles) : b.get? p.target = some p := get?_eq_some_iff.2 ⟨h, rfl⟩

theorem mem_of_get? (h : b.get? t = some p) : p ∈ b.puzzles ∧ p.target = t := get?_eq_some_iff.1 h

/-- The index spares a search through the puzzles. -/
theorem get?_eq_find? (b : Book) (t : Int64) :
    b.get? t = b.puzzles.find? fun p => decide (p.target = t) := by
  cases hfound : b.puzzles.find? fun p => decide (p.target = t) with
  | some p =>
    have htarget : p.target = t := by simpa using List.find?_some hfound
    exact get?_eq_some_iff.2 ⟨List.mem_of_find?_eq_some hfound, htarget⟩
  | none =>
    cases hget : b.get? t with
    | none => rfl
    | some p =>
      obtain ⟨hp, htarget⟩ := mem_of_get? hget
      exact absurd (decide_eq_true htarget) (List.find?_eq_none.1 hfound p hp)

end Book

end HiddenEquation
