import HiddenEquation.Expr.Evaluate
import HiddenEquation.Feedback
import HiddenEquation.Puzzle

/-!
# Checking a guess

A guess of the right length is evaluated first.  Only if its value is the target is it
compared with the solution, so a guess that does not evaluate, or to something else, learns
nothing but its own value.
-/

namespace HiddenEquation

/-- The double nearest to a target. -/
def targetFloat (target : Int64) : Float := Float.ofInt target.toInt

/-- The answer to a guess, as it is sent to the player. -/
structure Verdict where
  feedback : Feedback
  valid : Bool
  solved : Bool
  value : Option Float
  message : Option String

namespace Verdict

/-- The answer to a refused guess: all slots absent. -/
def rejected (length : Nat) (value : Option Float) (message : String) : Verdict :=
  { feedback := Feedback.allAbsent length
    valid := false
    solved := false
    value := value
    message := some message }

/-- What a solved puzzle is answered with. -/
def solvedMessage : String := "Puzzle solved!"

/-- What a guess without a finite value is answered with. -/
def invalidMessage : String := "Invalid or incomputable equation"

/-- What a guess with another value than the target is answered with. -/
def wrongValueMessage (value : Float) (target : Int64) : String :=
  s!"The equation gives {Decimal.plain value}, not {target.toInt}"

/-- The answer to a guess whose value is the target. -/
def graded (feedback : Feedback) (value : Float) : Verdict :=
  { feedback := feedback
    valid := true
    solved := feedback.solved
    value := some value
    message := if feedback.solved then some solvedMessage else none }

end Verdict

/-- Checks a guess against a target and a solution.  The length is checked before anything
is evaluated. -/
def checkGuess (guess : Guess) (target : Int64) (solution : Solution) :
    Except LengthMismatch Verdict :=
  if guess.length ≠ solution.length then .error ⟨solution.length, guess.length⟩
  else
    match Expr.evaluate guess.chars with
    | .error _ => .ok (.rejected guess.length none Verdict.invalidMessage)
    | .ok value =>
      if value == targetFloat target then
        match Feedback.compare guess solution with
        | .ok feedback => .ok (.graded feedback value)
        | .error e => .error e
      else .ok (.rejected guess.length (some value) (Verdict.wrongValueMessage value target))

end HiddenEquation
