import HiddenEquation.Guess

/-!
# Puzzles

A puzzle hides a solution behind its target; a challenge is what the player is told of it.
-/

namespace HiddenEquation

/-- A target value, an equation that has it, and how hard it is to find. -/
structure Puzzle where
  target : Int64
  solution : Solution
  difficulty : UInt8
deriving DecidableEq

/-- What the player is told of a puzzle; the solution is no part of it. -/
structure Challenge where
  target : Int64
  difficulty : UInt8
  length : Nat
deriving DecidableEq

namespace Challenge

/-- The challenge of a puzzle among puzzles of the given length. -/
def ofPuzzle (p : Puzzle) (length : Nat) : Challenge := ⟨p.target, p.difficulty, length⟩

end Challenge

end HiddenEquation
