import HiddenEquation.Audit
import HiddenEquation.Draw
import HiddenEquation.Event

/-!
# Traces

The events of each operation, in the order in which they happen.  A trace is computed from
the same arguments as the operation and takes no part in its result.
-/

namespace HiddenEquation.Trace

/-- The events of checking the characters of a text. -/
def alphabet (s : List Char) : List Event :=
  match Expr.firstDisallowed s with
  | some (c, i) => [.characterRejected c i]
  | none => []

/-- The events of evaluating a tree. -/
def finiteValue (e : Expr Float) : List Event :=
  [.evaluating e, if e.value.isFinite then .evaluated e.value else .evaluatedNonFinite e.value]

/-- The events of evaluating a text. -/
def evaluate (s : List Char) : List Event :=
  let s := s.map plainSign
  match Expr.checkAlphabet s with
  | .error _ => alphabet s
  | .ok () =>
    match Expr.parse s with
    | .error e => [.parseFailed e]
    | .ok e => finiteValue e

/-- The events of checking a guess against a solution. -/
def checkGuess (guess : Guess) (target : Int64) (solution : Solution) : List Event :=
  if guess.length ≠ solution.length then []
  else
    evaluate guess.chars ++
      match Expr.evaluate guess.chars with
      | .error e => [.guessRejected guess e]
      | .ok value =>
        if value == targetFloat target then
          [.guessGraded guess (Feedback.ofChars guess.chars solution.chars)]
        else [.guessOffTarget guess value target]

/-- The events of checking a guess for the puzzle with a given target. -/
def check (b : Book) (guess : Guess) (target : Int64) : List Event :=
  match b.get? target with
  | some p => checkGuess guess target p.solution
  | none => []

/-- The events of reading the entries among some lines. -/
def entries (lines : List (List Char)) : List Event :=
  (Entry.ofLines lines).filterMap fun e =>
    match Entry.read e with
    | .ok _ => none
    | .error f => some (.entrySkipped f)

/-- The events of choosing the puzzles of a book, when some targets are already taken. -/
def usableFrom (length : Nat) (taken : List Int64) : List Puzzle → List Event
  | [] => []
  | p :: ps =>
    if p.solution.length ≠ length then
      .lengthSkipped p.target p.solution.length length :: usableFrom length taken ps
    else if p.target ∈ taken then .duplicateSkipped p.target :: usableFrom length taken ps
    else usableFrom length (p.target :: taken) ps

/-- The events of making a book of a list of puzzles. -/
def puzzles (ps : List Puzzle) (length : Nat) : List Event := usableFrom length [] ps

/-- The events of making a book of the entries among some lines. -/
def lines (ls : List (List Char)) (length : Nat) : List Event :=
  entries ls ++ puzzles (Entry.puzzles ls) length

/-- The events of making a book of a file. -/
def file (content : Book.FileContent) (length : Nat) : List Event :=
  match Book.linesOfFile content with
  | .ok ls => lines ls length
  | .error _ => []

/-- The events of drawing a puzzle. -/
def draw (b : Book) (difficulty : Option UInt8) (c : Chooser) : List Event :=
  let target := (b.draw difficulty c).target
  match difficulty with
  | none => [.drawn target]
  | some d =>
    if b.ofDifficulty d = [] then [.noneOfDifficulty d, .drawn target]
    else [.drawnOfDifficulty target d]

/-- The events of auditing a puzzle. -/
def auditPuzzle (p : Puzzle) : List Event :=
  evaluate p.solution.chars
    ++ (match Expr.evaluate p.solution.chars with
        | .ok value =>
          if value == targetFloat p.target then checkGuess p.solution.toGuess p.target p.solution
          else []
        | .error _ => [])
    ++ match p.audit with
        | .ok () => []
        | .error f => [.auditFailed p.target f.message]

/-- The events of auditing a book: those of one puzzle after those of another, the puzzles in
the order of what is noted last about them. -/
def audit (b : Book) : List Event :=
  let noted := b.puzzles.map auditPuzzle
  let last (es : List Event) : String := (es.getLast?.map Event.message).getD ""
  (noted.mergeSort fun a b => decide (last a ≤ last b)).flatten

end HiddenEquation.Trace
