import HiddenEquation.Report
import HiddenEquation.Round
import HiddenEquation.Text.Pieces
import HiddenEquation.Trace

/-!
# The game as a dialogue

The game on a terminal line by line: a prompt, one line of input, an answer.  At a guess
prompt the line is a command or a guess; when a round is over the player is asked whether to
play again.  `Dialogue.respond` is one exchange and `Dialogue.run` a whole conversation,
which ends when the player leaves, when the input ends, or at a line that is no text.
-/

namespace HiddenEquation

open Styled (plain inked)

/-- A line of input; `none` stands for bytes that are no text. -/
abbrev InputLine := Option (List Char)

namespace Dialogue

/-- What the player is asked for. -/
inductive Prompt where
  | guess
  | again
deriving DecidableEq, Repr

/-- Where the dialogue stands: a round, and the prompt to be answered next. -/
structure State where
  round : Round
  prompt : Prompt

/-- The text of the prompt. -/
def State.promptText (s : State) : String :=
  match s.prompt with
  | .guess => s!"Guess {s.round.attempts.length + 1}/{s.round.maxAttempts}: "
  | .again => "Play again? (yes/no): "

/-- The answer to a line: what is printed, what is noted, and how the dialogue goes on. -/
structure Reply where
  printed : Styled
  events : List Event
  next : Option State

/-! ## What is printed -/

/-- The rules of the game. -/
def greeting : Styled :=
  plain ("\n╔══════════════════════════════════════════════════════════════╗\n"
      ++ "║                  Mathler - Interactive Mode                  ║\n"
      ++ "╚══════════════════════════════════════════════════════════════╝\n\n"
      ++ "Find the hidden equation that equals the target.\n"
      ++ "Use digits and + - * / (× also works). Normal precedence applies.\n\n  ")
    ++ inked (.on .black .green) " C " ++ plain " right character, right place\n  "
    ++ inked (.on .black .yellow) " P " ++ plain " in the equation, wrong place\n  "
    ++ inked (.on .white .brightBlack) " - " ++ plain " not in the equation\n"
    ++ plain "\nCommands: 'quit' to exit, 'new' for a new puzzle\n\n"

/-- The challenge of a round. -/
def announcement (c : Challenge) : Styled :=
  let line := Report.rule 60 '─'
  plain s!"{line}\nTarget: " ++ inked (.boldOf .brightYellow) (toString c.target.toInt)
    ++ plain s!"   ({c.length} characters, difficulty {c.difficulty.toNat})\n{line}\n\n"

/-- What is printed when the player leaves. -/
def farewell : Styled := plain "\n👋 Thanks for playing!\n\n"

/-- The praise for solving a puzzle with so many guesses. -/
def praise (turn : Nat) : String × String :=
  match turn with
  | 1 => ("🏆 Perfect!", "Incredible hole-in-one!")
  | 2 => ("⭐ Excellent!", "Outstanding performance!")
  | 3 => ("💫 Great!", "Very well played!")
  | 4 => ("✨ Good!", "Nice work!")
  | 5 => ("👍 Solved!", "Got it!")
  | _ => ("✓ Complete!", "Phew!")

/-- A line of the history of guesses. -/
def historyLine (a : Attempt) (i : Nat) : Styled :=
  plain "    " ++ inked (.of .brightBlack) (toString (i + 1)) ++ plain ". "
    ++ inked (.boldOf .brightWhite) a.guess.text ++ plain s!" {a.verdict.feedback.emoji}\n"

/-- What is printed when a round is won. -/
def celebration (r : Round) : Styled :=
  let turn := r.attempts.length
  let bar := inked (.of .brightCyan) (Report.rule 70 '═')
  plain "\n" ++ bar ++ plain "\n"
    ++ inked (.boldOf .brightGreen) "    🎉 🎊 ✨  M A T H L E R   S O L V E D !  ✨ 🎊 🎉    "
    ++ plain "\n" ++ bar ++ plain "\n"
    ++ plain "\n  " ++ inked (.boldOf .brightYellow) (praise turn).1
    ++ plain "\n  " ++ inked (.of .brightWhite) (praise turn).2
    ++ plain "\n\n  Solved in " ++ inked (.boldOf .brightCyan) (toString turn)
    ++ plain (if turn = 1 then " guess\n" else " guesses\n")
    ++ plain "\n  Guess history:\n"
    ++ (r.attempts.zipIdx.map fun a => historyLine a.1 a.2).flatten
    ++ plain "\n" ++ bar ++ plain "\n\n"

/-- What is printed when a round is lost. -/
def defeat : Styled :=
  inked (.boldOf .red) "😞 Out of attempts! Better luck next time." ++ plain "\n"

/-- What is printed for a guess that was refused. -/
def refusal (g : Guess) (v : Verdict) : Styled :=
  let message := v.message.getD ""
  plain s!"❌ {message}\n"
    ++ match v.value with
        | some x => plain s!"   ({g.text} = {Decimal.plain x})\n\n"
        | none => plain "\n"

/-! ## One exchange -/

/-- Whether the text is one of the words, in whatever case.  No letter outside ASCII has a
letter of these words as its lower case. -/
def isWord (s : List Char) (words : List String) : Bool :=
  words.any fun w => s.map Char.toLower == w.toList

/-- Whether the text asks to leave. -/
def isQuit (s : List Char) : Bool := isWord s ["quit", "q", "exit"]

/-- Whether the text asks for a new puzzle. -/
def isNew (s : List Char) : Bool := isWord s ["new", "n"]

/-- Whether the text agrees to play again. -/
def isYes (s : List Char) : Bool := isWord s ["yes", "y"]

/-- A new round. -/
def newRound (d : Dealer) (c : Chooser) : State := ⟨.start (d.deal c), .guess⟩

/-- The dialogue before any input. -/
def start (d : Dealer) (c : Chooser) : Reply :=
  let s := newRound d c
  { printed := greeting ++ announcement s.round.challenge
    events := Trace.draw d.book d.difficulty c
    next := some s }

/-- The answer to a wish for a new puzzle. -/
def again (d : Dealer) (c : Chooser) : Reply :=
  let s := newRound d c
  { printed := plain "\n🔄 New game started!\n\n" ++ announcement s.round.challenge
    events := Trace.draw d.book d.difficulty c
    next := some s }

/-- How the dialogue goes on when a round stands as it does. -/
def conclude (r : Round) : Styled × State :=
  match r.status with
  | .playing => ([], ⟨r, .guess⟩)
  | .won => (celebration r, ⟨r, .again⟩)
  | .lost => (defeat, ⟨r, .again⟩)

/-- The answer to a guess. -/
def answerGuess (d : Dealer) (r : Round) (g : Guess) : Reply :=
  match r.submit d.book g with
  | .error .finished => ⟨(conclude r).1, [], some (conclude r).2⟩
  | .error (.check e) =>
    ⟨plain s!"❌ {e.message}\n\n", Trace.check d.book g r.challenge.target, some ⟨r, .guess⟩⟩
  | .ok (v, next) =>
    let events := Trace.check d.book g r.challenge.target
    if v.valid then
      ⟨plain "  " ++ Report.tiles g v.feedback ++ plain "\n\n" ++ (conclude next).1, events,
        some (conclude next).2⟩
    else ⟨refusal g v, events, some ⟨r, .guess⟩⟩

/-- The answer to a line of text. -/
def respond (d : Dealer) (c : Chooser) (s : State) (line : List Char) : Reply :=
  let input := Text.trim line
  match s.prompt with
  | .guess =>
    if isQuit input then ⟨farewell, [], none⟩
    else if isNew input then again d c
    else answerGuess d s.round (.ofChars input)
  | .again => if isYes input then again d c else ⟨farewell, [], none⟩

/-! ## A conversation -/

/-- How a conversation ends. -/
inductive Ending where
  | left
  | inputClosed
  | notText
deriving DecidableEq, Repr

/-- The wording of an ending that is a fault. -/
def Ending.fault? : Ending → Option String
  | .left => none
  | .inputClosed => some "Input closed"
  | .notText => some (FileFault.message .notText)

/-- A conversation: all that was printed and noted, and how it ended. -/
structure Transcript where
  printed : Styled
  events : List Event
  ending : Ending

/-- What a conversation adds at its front. -/
def Transcript.after (t : Transcript) (printed : Styled) (events : List Event) : Transcript :=
  { t with printed := printed ++ t.printed, events := events ++ t.events }

/-- The conversation from a state on.  Each line comes with the luck of the draw that it may
ask for. -/
def converse (d : Dealer) (s : State) : List (InputLine × Chooser) → Transcript
  | [] => ⟨plain s.promptText, [], .inputClosed⟩
  | (none, _) :: _ => ⟨plain s.promptText, [], .notText⟩
  | (some line, c) :: rest =>
    let reply := respond d c s line
    let more : Transcript :=
      match reply.next with
      | none => ⟨[], [], .left⟩
      | some next => converse d next rest
    more.after (plain s.promptText ++ reply.printed) reply.events

/-- A whole conversation; the first draw is made before any input. -/
def run (d : Dealer) (first : Chooser) (lines : List (InputLine × Chooser)) : Transcript :=
  let opening := start d first
  (converse d (newRound d first) lines).after opening.printed opening.events

/-- The lines of an input of bytes. -/
def linesOfBytes (bytes : List UInt8) : List InputLine :=
  (Text.terminated 10 bytes).map fun line =>
    (String.fromUTF8? (ByteArray.mk line.toArray)).map String.toList

end Dialogue

end HiddenEquation
