import HiddenEquation.Decimal.Integer
import HiddenEquation.Puzzle
import HiddenEquation.Text.Blank
import HiddenEquation.Text.Pieces

/-!
# Puzzle entries

A puzzle is written on one line as `target:solution:difficulty`, with blanks allowed around
each field.  The fields are checked from left to right and the first fault is reported.
Blank lines and lines that start with `#` are no entries.
-/

namespace HiddenEquation

/-- What is wrong with an entry. -/
inductive EntryFault where
  | shape
  | target (fault : Decimal.IntegerFault)
  | solution
  | difficulty (fault : Decimal.IntegerFault)
deriving DecidableEq, Repr

/-- The wording of a solution without characters. -/
def emptySolutionMessage : String := "Solution must not be empty"

/-- The wording of a fault. -/
def EntryFault.message : EntryFault → String
  | .shape => "expected target:solution:difficulty"
  | .target f => s!"bad target value: {f.message}"
  | .solution => emptySolutionMessage
  | .difficulty f => s!"bad difficulty: {f.message}"

/-- An entry that is no puzzle, as it was given. -/
structure EntryError where
  entry : List Char
  fault : EntryFault
deriving DecidableEq, Repr

/-- The wording of a refused entry. -/
def EntryError.message (e : EntryError) : String :=
  s!"Invalid puzzle entry '{String.ofList e.entry}': {e.fault.message}"

namespace Entry

/-- Reads the target field. -/
def readTarget (s : List Char) : Except EntryFault Int64 :=
  match Decimal.readInteger .int64 s with
  | .ok n => .ok (Int64.ofInt n)
  | .error f => .error (.target f)

/-- Reads the solution field. -/
def readSolution (s : List Char) : Except EntryFault Solution :=
  match Solution.ofChars? s with
  | some sol => .ok sol
  | none => .error .solution

/-- Reads the difficulty field. -/
def readDifficulty (s : List Char) : Except EntryFault UInt8 :=
  match Decimal.readInteger .uint8 s with
  | .ok n => .ok (UInt8.ofNat n.toNat)
  | .error f => .error (.difficulty f)

/-- Reads the three fields of an entry, in order. -/
def readFields : List (List Char) → Except EntryFault Puzzle
  | [target, solution, difficulty] => do
    let target ← readTarget (Text.trim target)
    let solution ← readSolution (Text.trim solution)
    let difficulty ← readDifficulty (Text.trim difficulty)
    return ⟨target, solution, difficulty⟩
  | _ => .error .shape

/-- Reads an entry. -/
def read (entry : List Char) : Except EntryError Puzzle :=
  match readFields (Text.pieces ':' (Text.trim entry)) with
  | .ok p => .ok p
  | .error f => .error ⟨entry, f⟩

/-- Whether a trimmed line holds an entry and is neither blank nor a comment. -/
def isEntry (line : List Char) : Bool := !line.isEmpty && line.head? != some '#'

/-- The entries among the given lines, trimmed. -/
def ofLines (lines : List (List Char)) : List (List Char) :=
  (lines.map Text.trim).filter isEntry

/-- The puzzles that the entries among the lines describe; the others are dropped. -/
def puzzles (lines : List (List Char)) : List Puzzle :=
  (ofLines lines).filterMap fun e => (read e).toOption

end Entry

end HiddenEquation
