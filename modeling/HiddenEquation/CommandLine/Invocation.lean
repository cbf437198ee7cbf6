import HiddenEquation.Book
import HiddenEquation.CommandLine.Argument
import HiddenEquation.Question

/-!
# Invocations

The commands of the program and the options that go with each.  The options for the book and
the log may stand before the name of the command or after it; after it they win.  Without a
command the game is played on the full screen.
-/

namespace HiddenEquation.CommandLine

/-! ## What can be asked for -/

/-- A command that prints one answer. -/
inductive Task where
  | check (question : Question) (json : Bool)
  | puzzle (difficulty : Option UInt8) (json : Bool)
  | verify
deriving DecidableEq

/-- What the program is to do. -/
inductive Command where
  | play (difficulty : Option UInt8)
  | simple (difficulty : Option UInt8)
  | task (t : Task)
deriving DecidableEq

/-- What holds for every command. -/
structure Settings where
  puzzles : Option String
  length : Nat
  logLevel : Level
deriving DecidableEq

/-- What the arguments ask for. -/
inductive Invocation where
  | version
  | run (settings : Settings) (command : Command)
deriving DecidableEq

/-! ## Options -/

/-- The names of the levels in arguments. -/
def levelNames : List (String × Level) :=
  [("error", .error), ("warn", .warn), ("info", .info), ("debug", .debug), ("trace", .trace)]

/-- Difficulties in arguments; a sign may stand before them. -/
def difficultyRange : Decimal.IntegerRange := ⟨0, 0xFF, true⟩

/-- The options that go with every command. -/
def commonFlags : List Flag :=
  [⟨"puzzles", some 'p', some .text⟩, ⟨"length", some 'l', some (.integer .uint64)⟩,
   ⟨"log-level", none, some (.word (levelNames.map Prod.fst))⟩]

/-- The option that asks for the version. -/
def versionFlag : Flag := ⟨"version", some 'V', none⟩

/-- The option for a difficulty. -/
def difficultyFlag : Flag := ⟨"difficulty", some 'd', some (.integer difficultyRange)⟩

/-- The option for JSON output. -/
def jsonFlag : Flag := ⟨"json", none, none⟩

/-- The names of the commands. -/
inductive CommandName where
  | play
  | simple
  | check
  | puzzle
  | verify
deriving DecidableEq, Repr

namespace CommandName

/-- The command with the given name. -/
def ofString? : String → Option CommandName
  | "play" => some play
  | "simple" => some simple
  | "check" => some check
  | "puzzle" => some puzzle
  | "verify" => some verify
  | _ => none

/-- The options that a command has of its own. -/
def flags : CommandName → List Flag
  | play | simple => [difficultyFlag]
  | check => [⟨"target", some 't', some (.integer .int64)⟩, ⟨"request", none, some .text⟩, jsonFlag]
  | puzzle => [difficultyFlag, jsonFlag]
  | verify => []

/-- The most operands that a command takes. -/
def operands : CommandName → Nat
  | check => 1
  | _ => 0

end CommandName

/-! ## From arguments to commands -/

/-- The difficulty asked for. -/
def Collected.difficulty (c : Collected) : Option UInt8 :=
  (c.integer? "difficulty" difficultyRange).map fun n => UInt8.ofNat n.toNat

/-- The target asked for. -/
def Collected.target (c : Collected) : Option Int64 :=
  (c.integer? "target" .int64).map Int64.ofInt

/-- The question asked: a request alone, or an equation with a target. -/
def Collected.question (c : Collected) : Except UsageError Question :=
  match c.value? "request", c.operands.head?, c.target with
  | some text, none, none => .ok (.json text.toList)
  | some _, some _, _ => .error (.conflict "--request" "EXPRESSION")
  | some _, none, some _ => .error (.conflict "--request" "--target")
  | none, some text, some target => .ok (.equation text.toList target)
  | none, none, _ => .error (.missing "EXPRESSION")
  | none, some _, none => .error (.missing "--target")

/-- The command that a name and what was collected for it make. -/
def Collected.command (c : Collected) : CommandName → Except UsageError Command
  | .play => .ok (.play c.difficulty)
  | .simple => .ok (.simple c.difficulty)
  | .check => c.question.map fun q => .task (.check q (c.isOn "json"))
  | .puzzle => .ok (.task (.puzzle c.difficulty (c.isOn "json")))
  | .verify => .ok (.task .verify)

/-- The settings, where `inner` stands after the name of the command and wins. -/
def settings (outer inner : Collected) : Settings :=
  let value (name : String) : Option String := (inner.value? name).or (outer.value? name)
  let length :=
    (inner.integer? "length" .uint64).or (outer.integer? "length" .uint64)
  { puzzles := value "puzzles"
    length := (length.map Int.toNat).getD Book.defaultLength
    logLevel := ((value "log-level").bind fun n => levelNames.lookup n).getD .warn }

/-- Reads the arguments after the name of a command. -/
def readCommand (outer : Collected) (name : CommandName) (args : List String) :
    Except UsageError Invocation := do
  let c ← Collected.empty.addAll (readAll (commonFlags ++ name.flags) args)
  match c.operands.drop name.operands with
  | t :: _ => .error (.unexpectedOperand t)
  | [] => return .run (settings outer c) (← c.command name)

/-- What is collected from some options before the name of a command; nothing when they ask
for the version. -/
def addOptions (c : Collected) : List Given → Except UsageError (Option Collected)
  | [] => .ok (some c)
  | .switch n :: gs =>
    if n = versionFlag.name then .ok none
    else
      match c.add (.switch n) with
      | .ok c => addOptions c gs
      | .error e => .error e
  | g :: gs =>
    match c.add g with
    | .ok c => addOptions c gs
    | .error e => .error e

/-- Reads the arguments when some options are already collected. -/
def readFrom (c : Collected) : List String → Except UsageError Invocation
  | [] => .ok (.run (settings c .empty) (.play none))
  | arg :: next =>
    if arg == "--" then
      match next with
      | [] => .ok (.run (settings c .empty) (.play none))
      | t :: _ => .error (.unexpectedOperand t)
    else if isOption arg then
      let given := readOptions (versionFlag :: commonFlags) arg next
      match addOptions c given.1 with
      | .error e => .error e
      | .ok none => .ok .version
      | .ok (some c) => readFrom c (next.drop given.2)
    else
      match CommandName.ofString? arg with
      | some name => readCommand c name next
      | none => .error (.unknownCommand arg)
termination_by args => args.length
decreasing_by
  simp only [List.length_cons, List.length_drop]
  omega

/-- Reads all arguments. -/
def Invocation.ofArguments (args : List String) : Except UsageError Invocation :=
  readFrom .empty args

end HiddenEquation.CommandLine
