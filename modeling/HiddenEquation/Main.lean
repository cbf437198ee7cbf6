import HiddenEquation.CommandLine.Outcome
import HiddenEquation.Play.Frame
import HiddenEquation.Play.Key

/-!
# The program

Reads the arguments, the book and the player's input, hands them to the library and writes
what it answers.  Nothing is decided here.
-/

namespace HiddenEquation.Main

open CommandLine

/-- The streams and settings of a run. -/
structure Console where
  stdin : IO.FS.Stream
  stdout : IO.FS.Stream
  stderr : IO.FS.Stream
  colours : Bool
  logLevel : Level

/-- The luck of one draw. -/
def luck : IO Chooser := do
  let word ← IO.rand 0 0xFFFFFFFF
  return .ofWord (UInt32.ofNat word)

/-- What is found in the place of a file.  Opening a path that leads through a file names the
path in its fault; reading a directory does not. -/
def contentOf (path : String) : IO Book.FileContent := do
  try
    return .ok (← IO.FS.readBinFile ⟨path⟩)
  catch e =>
    match e with
    | .permissionDenied .. => return .error .denied
    | .inappropriateType (some _) _ _ => return .error .notDirectory
    | .inappropriateType none _ _ => return .error .isDirectory
    | .invalidArgument .. => return .error .nameTooLong
    | _ => return .error .notFound

/-- Shows some text. -/
def Console.print (c : Console) (s : Styled) : IO Unit := do
  c.stdout.putStr (s.render c.colours)
  c.stdout.flush

/-- Notes some events down. -/
def Console.note (c : Console) (events : List Event) : IO Unit :=
  c.stderr.putStr (Event.log c.logLevel events)

/-- Reads one line; nothing at the end of the input. -/
def Console.line? (c : Console) : IO (Option InputLine) := do
  try
    let line ← c.stdin.getLine
    return if line.isEmpty then none else some (some line.toList)
  catch _ => return some none

/-- Shows an outcome and gives its status. -/
def Console.finish (c : Console) (o : Outcome) : IO UInt32 := do
  c.print o.printed
  c.stderr.putStr (o.complaints c.logLevel)
  return UInt32.ofNat o.status

/-- Holds the conversation from a state on. -/
partial def talk (c : Console) (d : Dealer) (s : Dialogue.State) : IO UInt32 := do
  c.print (.plain s.promptText)
  match ← c.line? with
  | none => c.finish (.ofTranscript ⟨[], [], .inputClosed⟩)
  | some none => c.finish (.ofTranscript ⟨[], [], .notText⟩)
  | some (some line) =>
    let reply := Dialogue.respond d (← luck) s line
    c.note reply.events
    c.print reply.printed
    match reply.next with
    | none => return 0
    | some next => talk c d next

/-- Plays on the full screen from a game on.  A line that is entered stands for its keys. -/
partial def play (c : Console) (d : Dealer) (g : Play.Game) : IO UInt32 := do
  c.print (.plain "\x1b[2J\x1b[H" ++ (Play.frame g).styled)
  match ← c.line? with
  | some (some line) =>
    let keys := Play.Key.ofText (line.map fun k => if k = '\n' then '\r' else k)
    let mut game := g
    for key in keys do
      let chance ← luck
      c.note (game.keyEvents d chance key)
      match game.press d chance key with
      | some next => game := next
      | none => return 0
    play c d game
  | _ => return 0

/-- Carries a command out. -/
def carryOut (c : Console) (b : Book) (command : Command) : IO UInt32 := do
  match command with
  | .task t =>
    let start ← IO.monoNanosNow
    let _ ← IO.lazyPure fun _ => b.audit.clean
    let stop ← IO.monoNanosNow
    c.finish (t.run b (← luck) (Report.duration ((stop - start) / 1000)))
  | .simple difficulty =>
    let dealer : Dealer := ⟨b, difficulty⟩
    let first ← luck
    let opening := Dialogue.start dealer first
    c.note opening.events
    c.print opening.printed
    talk c dealer (Dialogue.newRound dealer first)
  | .play difficulty =>
    let dealer : Dealer := ⟨b, difficulty⟩
    let first ← luck
    c.note (Trace.draw b difficulty first)
    play c dealer (.start dealer first)

end HiddenEquation.Main

open HiddenEquation HiddenEquation.CommandLine HiddenEquation.Main in
/-- Does what the arguments ask for; the result is the exit status. -/
def main (args : List String) : IO UInt32 := do
  let stdin ← IO.getStdin
  let stdout ← IO.getStdout
  let stderr ← IO.getStderr
  match Invocation.ofArguments args with
  | .error e =>
    stderr.putStr ("error: " ++ e.message ++ "\n")
    return UInt32.ofNat usageStatus
  | .ok .version =>
    stdout.putStr versionLine
    return 0
  | .ok (.run settings command) =>
    let console : Console := ⟨stdin, stdout, stderr, ← stdout.isTty, settings.logLevel⟩
    let found ← contentOf (settings.puzzles.getD "")
    let content (_ : String) : Book.FileContent := found
    console.note (settings.loadEvents content)
    match settings.book content with
    | .error e => console.finish ⟨[], [], some (settings.loadFailure e)⟩
    | .ok b => carryOut console b command
