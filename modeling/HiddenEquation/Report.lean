import HiddenEquation.Audit
import HiddenEquation.Styled

/-!
# Printed reports

What the commands print: the tiles of a guess, the answer to a guess, a puzzle, and the
result of an audit with a bar for each difficulty.
-/

namespace HiddenEquation.Report

open Styled (plain inked)

/-- A run of one character. -/
def rule (n : Nat) (c : Char) : String := String.ofList (List.replicate n c)

/-! ## Tiles and bars -/

/-- The ink of a tile. -/
def tileInk : Mark → Ink
  | .correct => ⟨true, some .green, some .black⟩
  | .present => ⟨true, some .yellow, some .black⟩
  | .absent => ⟨true, some .brightBlack, some .white⟩

/-- One character as a tile. -/
def tile (c : Char) (m : Mark) : Span := ⟨tileInk m, s!" {c} "⟩

/-- A guess as a row of tiles, as far as there are marks. -/
def tiles (g : Guess) (f : Feedback) : Styled := (g.chars.zip f.marks).map fun t => tile t.1 t.2

/-- The number of filled cells of a bar: the share of the whole, rounded down. -/
def filledCells (value whole : Float) (width : Nat) : Nat :=
  if whole ≤ 0 then 0
  else (Decimal.Binary64.ofFloat (value / whole * Float.ofNat width)).wholeUpTo width

/-- A bar of the given width, filled by the share of the whole. -/
def bar (value whole : Float) (width : Nat) : String :=
  let n := filledCells value whole width
  rule n '█' ++ rule (width - n) '░'

/-! ## Reports -/

/-- A heading between two double lines. -/
def heading (title : String) : Styled :=
  plain "\n" ++ inked (.of .cyan) (rule 60 '═') ++ plain "\n "
    ++ inked (.boldOf .brightCyan) title ++ plain " \n"
    ++ inked (.of .cyan) (rule 60 '═') ++ plain "\n"

/-- The last line of the answer to a guess. -/
def conclusion (v : Verdict) : Styled :=
  if v.solved then inked (.boldOf .green) "✅ Puzzle solved!"
  else if v.valid then
    inked (.of .yellow)
      s!"✓ Valid equation: {v.feedback.count .correct} correct, {v.feedback.count .present} present"
  else
    let message := v.message.getD "Invalid guess"
    inked (.boldOf .red) s!"❌ {message}"

/-- The answer to a guess. -/
def verdict (g : Guess) (target : Int64) (v : Verdict) : Styled :=
  plain "\n" ++ inked (.of .cyan) (rule 60 '─') ++ plain "\nTarget: "
    ++ inked (.boldOf .brightYellow) (toString target.toInt) ++ plain "   Guess: "
    ++ inked (.boldOf .brightWhite) g.text ++ plain "\n"
    ++ inked (.of .cyan) (rule 60 '─') ++ plain "\n\n  "
    ++ tiles g v.feedback ++ plain s!"  {v.feedback.emoji}\n"
    ++ (match v.value with
        | some x =>
          plain "\n  Calculated value: " ++ inked (.of .brightCyan) (Decimal.plain x) ++ plain "\n"
        | none => [])
    ++ plain "\n" ++ conclusion v ++ plain "\n"

/-- A puzzle as it is posed. -/
def challenge (c : Challenge) : Styled :=
  heading "MATHLER PUZZLE"
    ++ plain "\n  Find the equation that equals "
    ++ inked (.boldOf .brightYellow) (toString c.target.toInt)
    ++ plain s!"\n  Equation length:  {c.length}\n  Difficulty:       {c.difficulty.toNat}\n"

/-- What is printed before an audit. -/
def auditStart (total : Nat) : Styled := plain s!"🔍 Auditing {total} puzzles...\n"

/-- A number in at least four columns. -/
def fourColumns (n : Nat) : String :=
  let digits := toString n
  rule (4 - digits.length) ' ' ++ digits

/-- The bar of one difficulty. -/
def difficultyLine (total : Nat) (d : UInt8 × Nat) : Styled :=
  plain s!"   {d.1.toNat}: "
    ++ inked (.of .green) (bar (Float.ofNat d.2) (Float.ofNat total) 40)
    ++ plain s!" {fourColumns d.2}\n"

/-- The line of one failure. -/
def failureLine (f : AuditFailure) : Styled :=
  plain "   " ++ inked (.of .brightYellow) (toString f.target.toInt) ++ plain " "
    ++ inked (.of .brightWhite) f.solution ++ plain " " ++ inked (.of .red) f.reason
    ++ plain "\n"

/-- Some microseconds as the report shows them: seconds with three decimal places. -/
def duration (micros : Nat) : String :=
  let seconds := Float.ofNat (micros / 1000000)
    + Float.ofNat (micros % 1000000 * 1000) / Float.ofNat 1000000000
  Decimal.fixed 3 seconds ++ "s"

/-- The result of an audit, with the time that it took. -/
def audit (r : AuditReport) (time : String) : Styled :=
  heading "PUZZLE AUDIT"
    ++ plain "\n📊 " ++ inked (.boldOf .brightCyan) "Summary:"
    ++ plain s!"\n   Puzzles checked:  {r.total}\n   Passed:           "
    ++ inked (.of .green) (toString r.passed)
    ++ plain "\n   Failed:           "
    ++ (if r.clean then inked (.of .green) "0"
        else inked (.boldOf .red) (toString r.failures.length))
    ++ plain s!"\n   Time taken:       {time}\n"
    ++ plain "\n📈 " ++ inked (.boldOf .brightCyan) "Difficulty:" ++ plain "\n"
    ++ ((r.byDifficulty.mergeSort fun a b => decide (a.1 ≤ b.1)).map
          (difficultyLine r.total)).flatten
    ++ (if r.clean then []
        else plain "\n❌ " ++ inked (.boldOf .red) "Failures:" ++ plain "\n"
          ++ (r.failures.map failureLine).flatten)

end HiddenEquation.Report
