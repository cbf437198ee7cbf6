import HiddenEquation.Book
import HiddenEquation.Text.Quoted

/-!
# Events

What the program notes down while it works, for whoever runs it: what was dropped from a
book, what was drawn, how a guess fared.  An event knows its level, the part of the program
that noted it, and its wording.
-/

namespace HiddenEquation

/-- How much an event matters, the gravest first. -/
inductive Level where
  | error
  | warn
  | info
  | debug
  | trace
deriving DecidableEq, Repr

namespace Level

/-- The name of a level. -/
def name : Level → String
  | error => "ERROR"
  | warn => "WARN"
  | info => "INFO"
  | debug => "DEBUG"
  | trace => "TRACE"

/-- The place of a level in the order of gravity. -/
def rank : Level → Nat
  | error => 1
  | warn => 2
  | info => 3
  | debug => 4
  | trace => 5

/-- Whether events of a level are shown where the threshold is `limit`. -/
def shownAt (l limit : Level) : Bool := decide (l.rank ≤ limit.rank)

end Level

/-- Something worth noting down. -/
inductive Event where
  | characterRejected (c : Char) (index : Nat)
  | parseFailed (e : ExprError)
  | evaluating (tree : Expr Float)
  | evaluated (value : Float)
  | evaluatedNonFinite (value : Float)
  | guessRejected (guess : Guess) (e : ExprError)
  | guessOffTarget (guess : Guess) (value : Float) (target : Int64)
  | guessGraded (guess : Guess) (feedback : Feedback)
  | guessAccepted (remaining : Nat)
  | entrySkipped (e : EntryError)
  | lengthSkipped (target : Int64) (found expected : Nat)
  | duplicateSkipped (target : Int64)
  | drawn (target : Int64)
  | drawnOfDifficulty (target : Int64) (difficulty : UInt8)
  | noneOfDifficulty (difficulty : UInt8)
  | auditFailed (target : Int64) (reason : String)
  | bookLoaded (size length : Nat)

namespace Event

/-- The level of an event. -/
def level : Event → Level
  | entrySkipped _ | lengthSkipped .. | duplicateSkipped _ | auditFailed .. => .warn
  | drawn _ | drawnOfDifficulty .. | noneOfDifficulty _ | bookLoaded .. => .info
  | _ => .debug

/-- The part of the program that notes an event. -/
def origin : Event → String
  | characterRejected .. => "mathler::expression::lexer"
  | parseFailed _ => "mathler::expression"
  | evaluating _ | evaluated _ | evaluatedNonFinite _ => "mathler::expression::eval"
  | guessRejected .. | guessOffTarget .. | guessGraded .. => "mathler::game::engine"
  | guessAccepted _ => "mathler::interactive::app"
  | entrySkipped _ => "mathler::puzzles::loader"
  | lengthSkipped .. | duplicateSkipped _ => "mathler::puzzles"
  | drawn _ | drawnOfDifficulty .. | noneOfDifficulty _ => "mathler::puzzles"
  | auditFailed .. => "mathler::commands::verify"
  | bookLoaded .. => "mathler"

/-- The wording of an event. -/
def message : Event → String
  | characterRejected c i => s!"Rejected character {Text.quotedChar c} at position {i}"
  | parseFailed e => s!"Parse failed: {e.message}"
  | evaluating e => s!"Evaluating expression: {e.plainText}"
  | evaluated v => s!"Expression evaluated to: {Decimal.plain v}"
  | evaluatedNonFinite v => s!"Expression evaluated to non-finite value: {Decimal.plain v}"
  | guessRejected g e => s!"Rejected guess '{g.text}': {e.message}"
  | guessOffTarget g v t =>
    s!"Guess '{g.text}' gives {Decimal.plain v}, target is {t.toInt}"
  | guessGraded g f => s!"Guess '{g.text}' feedback: {f.codes}"
  | guessAccepted n => s!"Accepted guess, {n} attempts left"
  | entrySkipped e => s!"Skipping puzzle entry: {e.message}"
  | lengthSkipped t found expected =>
    s!"Skipping puzzle for {t.toInt}: solution has {found} characters, expected {expected}"
  | duplicateSkipped t => s!"Skipping duplicate puzzle for target {t.toInt}"
  | drawn t => s!"Selected puzzle with target {t.toInt}"
  | drawnOfDifficulty t d =>
    s!"Selected puzzle with target {t.toInt} (difficulty {d.toNat})"
  | noneOfDifficulty d =>
    s!"No puzzle with difficulty {d.toNat}, drawing from all puzzles"
  | auditFailed t reason => s!"Puzzle {t.toInt} failed audit: {reason}"
  | bookLoaded size length => s!"Loaded {size} puzzles of length {length}"

/-- An event with its level, as the records of one operation are listed. -/
def record (e : Event) : String := e.level.name ++ " " ++ e.message

/-- An event as a line of the log: the level in five columns, the origin, the wording. -/
def line (e : Event) : String :=
  let name := e.level.name
  let padded := name ++ String.ofList (List.replicate (5 - name.length) ' ')
  s!"[{padded} {e.origin}] {e.message}"

/-- The log of some events where only those at `limit` and above are shown. -/
def log (limit : Level) (events : List Event) : String :=
  String.join ((events.filter fun e => e.level.shownAt limit).map fun e => e.line ++ "\n")

end Event

end HiddenEquation
