import HiddenEquation.Book

/-!
# Drawing a puzzle

Chance enters as a `Chooser`: given a number of candidates it picks one of them.  Drawing
with a difficulty picks among the puzzles of that difficulty, or among all when there are
none.
-/

namespace HiddenEquation

/-- Picks one of `n + 1` candidates. -/
abbrev Chooser := (n : Nat) → Fin (n + 1)

namespace Chooser

/-- The candidate picked from a list that is not empty. -/
def pick {α : Type} (c : Chooser) (l : List α) (h : l ≠ []) : α :=
  l.get ⟨c (l.length - 1), by
    have := (c (l.length - 1)).isLt
    have := List.length_pos_iff.2 h
    omega⟩

/-- A word's share of all words, scaled to `n + 1`, is a candidate. -/
theorem share_lt (w : UInt32) (n : Nat) : w.toNat * (n + 1) / UInt32.size < n + 1 := by
  rw [Nat.div_lt_iff_lt_mul (by decide), Nat.mul_comm (n + 1)]
  exact Nat.mul_lt_mul_of_pos_right w.toNat_lt_size (Nat.succ_pos n)

/-- Picks by one word of 32 random bits: the word's share of all words is scaled to the
number of candidates. -/
def ofWord (w : UInt32) : Chooser := fun n =>
  ⟨w.toNat * (n + 1) / UInt32.size, share_lt w n⟩

theorem pick_mem {α : Type} (c : Chooser) {l : List α} (h : l ≠ []) : c.pick l h ∈ l :=
  List.get_mem _ _

end Chooser

namespace Book

/-- The puzzles of a difficulty. -/
def ofDifficulty (b : Book) (difficulty : UInt8) : List Puzzle :=
  b.puzzles.filter fun p => p.difficulty = difficulty

/-- Draws a puzzle from all. -/
def drawAny (b : Book) (c : Chooser) : Puzzle := c.pick b.puzzles b.nonempty

/-- Draws a puzzle of the difficulty asked for, or any when there is none or none is asked
for. -/
def draw (b : Book) (difficulty : Option UInt8) (c : Chooser) : Puzzle :=
  match difficulty with
  | none => b.drawAny c
  | some d => if h : b.ofDifficulty d = [] then b.drawAny c else c.pick (b.ofDifficulty d) h

/-- Draws a puzzle and describes it. -/
def challenge (b : Book) (difficulty : Option UInt8) (c : Chooser) : Challenge :=
  .ofPuzzle (b.draw difficulty c) b.length

theorem draw_mem (b : Book) (difficulty : Option UInt8) (c : Chooser) :
    b.draw difficulty c ∈ b.puzzles := by
  unfold draw
  split
  · exact c.pick_mem b.nonempty
  · split
    · exact c.pick_mem b.nonempty
    · rename_i h
      exact (List.mem_filter.1 (c.pick_mem h)).1

end Book

/-- What every new round draws from: a book, and the difficulty that the player asked for. -/
structure Dealer where
  book : Book
  difficulty : Option UInt8

/-- The challenge of a new round. -/
def Dealer.deal (d : Dealer) (c : Chooser) : Challenge := d.book.challenge d.difficulty c

end HiddenEquation
