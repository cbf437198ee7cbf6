import HiddenEquation.Play.Message
import HiddenEquation.Play.Tally
import HiddenEquation.Round
import HiddenEquation.Trace

/-!
# The game on a full screen

The player types an equation into an input line and submits it.  The game keeps the round,
the input line, the messages in sight and the tally of finished rounds; when a round ends
only a new game or leaving is left.  Every step is a function from a game to a game.
-/

namespace HiddenEquation.Play

/-- What the player may do: propose equations, or only start a new game. -/
inductive Mode where
  | guessing
  | over
deriving DecidableEq, Repr

/-- All that is kept between two keys. -/
structure Game where
  round : Round
  input : List Char
  mode : Mode
  messages : Messages
  tally : Tally

/-- The character that typing enters into an equation, if it can stand in one. -/
def keypad? (c : Char) : Option Char :=
  if c == 'x' || c == 'X' || c == multiplicationGlyph then some '*'
  else if c.isDigit || c == '+' || c == '-' || c == '*' || c == '/' then some c
  else none

/-- The praise for winning a round with so many attempts. -/
def praise (attempts : Nat) : String :=
  match attempts with
  | 1 => "🎯 HOLE IN ONE! Extraordinary! 🌟"
  | 2 => "🔥 MAGNIFICENT! Two guesses! 🔥"
  | 3 => "✨ SPLENDID! Three guesses! ✨"
  | 4 => "👏 GREAT JOB! Four guesses! 👏"
  | 5 => "🎉 NICE WORK! Five guesses! 🎉"
  | 6 => "😅 PHEW! Got it in six! 😅"
  | _ => "🎊 SOLVED! 🎊"

/-- The message on a guess that is refused. -/
def refusal (v : Verdict) : String :=
  let message := v.message.getD ""
  match v.value with
  | some x => s!"{message} ({Decimal.plain x})"
  | none => message

namespace Game

/-- The number of characters that an equation has. -/
def length (g : Game) : Nat := g.round.challenge.length

/-- One more message. -/
def post (g : Game) (tone : Tone) (text : String) : Game :=
  { g with messages := g.messages.post ⟨tone, text⟩ }

@[simp] theorem round_post (g : Game) (tone : Tone) (text : String) :
    (g.post tone text).round = g.round := rfl

/-- The game with the first round, before any key. -/
def start (d : Dealer) (c : Chooser) : Game :=
  let g : Game := ⟨.start (d.deal c), [], .guessing, .none, .none⟩
  (g.post .info "Welcome! Find the equation that equals the target.").post .info
    "Type digits and + - * / then press Enter"

/-- A new round in the place of the present one; only the tally is kept. -/
def newGame (g : Game) (d : Dealer) (c : Chooser) : Game :=
  let challenge := d.deal c
  Game.post ⟨.start challenge, [], .guessing, .none, g.tally⟩ .info
    s!"New game started! Target: {challenge.target.toInt}"

/-! ## Editing the input line -/

/-- Types a character.  One that stands in no equation, or for which there is no room, is
passed over. -/
def type (g : Game) (c : Char) : Game :=
  match keypad? c with
  | some k => if g.input.length < g.length then { g with input := g.input ++ [k] } else g
  | none => g

/-- Types several characters. -/
def typeAll (g : Game) (s : List Char) : Game := s.foldl type g

/-- Takes the last character back. -/
def erase (g : Game) : Game := { g with input := g.input.dropLast }

/-- Empties the input line. -/
def clear (g : Game) : Game := { g with input := [] }

/-! ## Submitting a guess -/

/-- What both ways of ending a round offer. -/
def offer : String := "Press 'n' for new game or 'q' to quit."

/-- The end of a round that is won. -/
def celebrate (g : Game) : Game :=
  let attempts := g.round.attempts.length
  (Game.post { g with mode := .over, tally := g.tally.addWin attempts } .success
    (praise attempts)).post .info offer

/-- The end of a round that is lost. -/
def concede (g : Game) : Game :=
  (Game.post { g with mode := .over, tally := g.tally.addLoss } .error "Out of attempts!").post
    .info offer

/-- What is told of a valid guess when the round goes on. -/
def hint (g : Game) (f : Feedback) : Game :=
  g.post .info
    s!"{f.count .correct} correct, {f.count .present} present | {g.round.remaining} attempts left"

/-- The game after a valid guess has brought the round to `next`. -/
def accept (g : Game) (v : Verdict) (next : Round) : Game :=
  let g := { g with round := next, input := [] }
  match next.status with
  | .playing => g.hint v.feedback
  | .won => g.celebrate
  | .lost => g.concede

/-- Submits the input line.  It stays for editing unless the guess is valid. -/
def submit (g : Game) (b : Book) : Game :=
  let guess := Guess.ofChars g.input
  if guess.length ≠ g.length then
    g.post .error s!"Equation must be {g.length} characters!"
  else
    match g.round.submit b guess with
    | .error .finished => g
    | .error (.check e) => g.post .error e.message
    | .ok (v, next) => if v.valid then g.accept v next else g.post .error (refusal v)

/-- The events of submitting the input line. -/
def submitEvents (g : Game) (b : Book) : List Event :=
  let guess := Guess.ofChars g.input
  if guess.length ≠ g.length || g.round.status ≠ .playing then []
  else
    Trace.check b guess g.round.challenge.target
      ++ match g.round.submit b guess with
          | .ok (v, next) => if v.valid then [.guessAccepted next.remaining] else []
          | .error _ => []

end Game

end HiddenEquation.Play
