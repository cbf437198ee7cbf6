import HiddenEquation.Book

/-!
# Auditing a book

A puzzle is sound if its solution has the target as its value and solves the puzzle.  The
report on a book lists the puzzles that fail by target, whatever the order in which they
were looked at, and counts the puzzles of each difficulty.
-/

namespace HiddenEquation

/-- Why a puzzle cannot be played. -/
inductive AuditFault where
  | expression (e : ExprError)
  | wrongValue (value : Float) (target : Int64)
  | length (m : LengthMismatch)
  | unsolved

/-- The wording of a fault. -/
def AuditFault.message : AuditFault → String
  | .expression e => s!"does not evaluate: {e.message}"
  | .wrongValue v t => s!"evaluates to {Decimal.plain v}, not {t.toInt}"
  | .length m => (CheckError.lengthMismatch m).message
  | .unsolved => "does not solve itself"

/-- Audits one puzzle and gives the first fault found. -/
def Puzzle.audit (p : Puzzle) : Except AuditFault Unit :=
  match Expr.evaluate p.solution.chars with
  | .error e => .error (.expression e)
  | .ok value =>
    if value == targetFloat p.target then
      match checkGuess p.solution.toGuess p.target p.solution with
      | .error m => .error (.length m)
      | .ok v => if v.solved then .ok () else .error .unsolved
    else .error (.wrongValue value p.target)

/-- A puzzle that failed, and why. -/
structure AuditFailure where
  target : Int64
  solution : String
  reason : String
deriving DecidableEq

/-- What an audit found. -/
structure AuditReport where
  total : Nat
  failures : List AuditFailure
  byDifficulty : List (UInt8 × Nat)

namespace AuditReport

/-- The number of puzzles that are sound. -/
def passed (r : AuditReport) : Nat := r.total - r.failures.length

/-- Whether no puzzle failed. -/
def clean (r : AuditReport) : Bool := r.failures.isEmpty

end AuditReport

namespace Audit

/-- The failure of a puzzle, if it is not sound. -/
def failure? (p : Puzzle) : Option AuditFailure :=
  match p.audit with
  | .ok () => none
  | .error f => some ⟨p.target, p.solution.text, f.message⟩

/-- Counts one more puzzle of a difficulty.  A difficulty that is not there yet is counted from
nothing, and gets its place in the ascending order. -/
def countUp (d : UInt8) : List (UInt8 × Nat) → List (UInt8 × Nat)
  | [] => [(d, 1)]
  | (e, n) :: counts =>
    if d < e then (d, 1) :: (e, n) :: counts
    else if d = e then (e, n + 1) :: counts
    else (e, n) :: countUp d counts

/-- The numbers of puzzles of each difficulty, counted puzzle by puzzle. -/
def byDifficulty (ps : List Puzzle) : List (UInt8 × Nat) :=
  ps.foldl (fun counts p => countUp p.difficulty counts) []

/-- The report on some puzzles, in whatever order they are looked at. -/
def report (ps : List Puzzle) : AuditReport where
  total := ps.length
  failures := (ps.filterMap failure?).mergeSort fun a b => decide (a.target.toInt ≤ b.target.toInt)
  byDifficulty := byDifficulty ps

end Audit

/-- The report on a book. -/
def Book.audit (b : Book) : AuditReport := Audit.report b.puzzles

end HiddenEquation
