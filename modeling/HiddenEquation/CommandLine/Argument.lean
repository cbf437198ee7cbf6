import HiddenEquation.Decimal.Integer
import HiddenEquation.Event

/-!
# Arguments

The arguments of a program are options and operands.  An option is named by a word after
two dashes or a letter after one; where it takes a value, the value stands in the same
argument, after an equals sign or right after the letter, or is the next argument, which
then must not look like an option itself.  After two dashes alone everything is an operand.
-/

namespace HiddenEquation.CommandLine

/-- What an option takes as its value. -/
inductive ValueKind where
  | text
  | integer (range : Decimal.IntegerRange)
  | word (choices : List String)
deriving DecidableEq, Repr

/-- Whether a text is a value of the kind. -/
def ValueKind.accepts : ValueKind → String → Bool
  | .text, _ => true
  | .integer range, s => (Decimal.readInteger range s.toList).toOption.isSome
  | .word choices, s => choices.contains s

/-- An option that a command knows; one without a kind takes no value. -/
structure Flag where
  name : String
  letter : Option Char
  kind : Option ValueKind
deriving DecidableEq, Repr

/-- What is wrong with the arguments. -/
inductive UsageError where
  | unknownOption (arg : String)
  | unexpectedValue (name : String)
  | missingValue (name : String)
  | badValue (name value : String)
  | repeated (name : String)
  | unexpectedOperand (text : String)
  | unknownCommand (text : String)
  | missing (name : String)
  | conflict (name other : String)
deriving DecidableEq, Repr

/-- The wording of an error. -/
def UsageError.message : UsageError → String
  | .unknownOption a => s!"unknown option '{a}'"
  | .unexpectedValue n => s!"option '--{n}' takes no value"
  | .missingValue n => s!"option '--{n}' needs a value"
  | .badValue n v => s!"'{v}' is no value for '--{n}'"
  | .repeated n => s!"option '--{n}' is given more than once"
  | .unexpectedOperand t => s!"unexpected argument '{t}'"
  | .unknownCommand t => s!"unknown command '{t}'"
  | .missing n => s!"'{n}' is required"
  | .conflict n o => s!"'{n}' cannot be used with '{o}'"

/-- One thing that the arguments say. -/
inductive Given where
  | valued (name value : String)
  | switch (name : String)
  | operand (text : String)
  | wrong (e : UsageError)
deriving DecidableEq, Repr

/-- Whether an argument is read as options. -/
def isOption (arg : String) : Bool := arg.startsWith "-" && arg != "-"

/-- The value that the next argument offers, if it does. -/
def offered? (next : List String) : Option String :=
  match next with
  | v :: _ => if isOption v then none else some v
  | [] => none

/-- An option with a value. -/
def Flag.withValue (f : Flag) (value : String) : Given :=
  match f.kind with
  | none => .wrong (.unexpectedValue f.name)
  | some k => if k.accepts value then .valued f.name value else .wrong (.badValue f.name value)

/-- An option whose value, if it takes one, is the next argument.  The number says how many
further arguments are used. -/
def Flag.bare (f : Flag) (next : List String) : Given × Nat :=
  match f.kind with
  | none => (.switch f.name, 0)
  | some _ =>
    match offered? next with
    | some v => (f.withValue v, 1)
    | none => (.wrong (.missingValue f.name), 0)

/-- Reads an option named by a word. -/
def readLong (flags : List Flag) (body : List Char) (next : List String) : Given × Nat :=
  let name := String.ofList (body.takeWhile (· != '='))
  match flags.find? fun f => f.name == name with
  | none => (.wrong (.unknownOption ("--" ++ name)), 0)
  | some f =>
    match body.dropWhile (· != '=') with
    | [] => f.bare next
    | _ :: value => (f.withValue (String.ofList value), 0)

/-- Reads options named by letters, the last of which may take a value. -/
def readShort (flags : List Flag) (next : List String) : List Char → List Given × Nat
  | [] => ([], 0)
  | c :: rest =>
    match flags.find? fun f => f.letter == some c with
    | none => ([.wrong (.unknownOption (String.ofList ['-', c]))], 0)
    | some f =>
      if f.kind.isNone then
        let more := readShort flags next rest
        (.switch f.name :: more.1, more.2)
      else
        match rest with
        | [] =>
          let g := f.bare next
          ([g.1], g.2)
        | '=' :: value => ([f.withValue (String.ofList value)], 0)
        | value => ([f.withValue (String.ofList value)], 0)

/-- Reads an argument that is read as options. -/
def readOptions (flags : List Flag) (arg : String) (next : List String) : List Given × Nat :=
  match arg.toList with
  | '-' :: '-' :: body =>
    let g := readLong flags body next
    ([g.1], g.2)
  | _ :: letters => readShort flags next letters
  | [] => ([], 0)

/-- Reads all arguments. -/
def readAll (flags : List Flag) : List String → List Given
  | [] => []
  | arg :: next =>
    if arg == "--" then next.map .operand
    else if isOption arg then
      let given := readOptions flags arg next
      given.1 ++ readAll flags (next.drop given.2)
    else .operand arg :: readAll flags next
termination_by args => args.length
decreasing_by
  all_goals
    simp only [List.length_cons, List.length_drop]
    omega

/-! ## Collecting -/

/-- What the arguments of one command said. -/
structure Collected where
  values : List (String × String)
  switches : List String
  operands : List String
deriving DecidableEq, Repr

namespace Collected

/-- Nothing. -/
def empty : Collected := ⟨[], [], []⟩

/-- The value of an option. -/
def value? (c : Collected) (name : String) : Option String := c.values.lookup name

/-- Whether a switch is on. -/
def isOn (c : Collected) (name : String) : Bool := c.switches.contains name

/-- Adds one thing; no option may be given twice. -/
def add (c : Collected) : Given → Except UsageError Collected
  | .valued n v =>
    if (c.value? n).isSome then .error (.repeated n)
    else .ok { c with values := c.values ++ [(n, v)] }
  | .switch n =>
    if c.isOn n then .error (.repeated n) else .ok { c with switches := c.switches ++ [n] }
  | .operand t => .ok { c with operands := c.operands ++ [t] }
  | .wrong e => .error e

/-- Collects several things. -/
def addAll (c : Collected) (gs : List Given) : Except UsageError Collected :=
  gs.foldlM add c

/-- The integer that is the value of an option. -/
def integer? (c : Collected) (name : String) (range : Decimal.IntegerRange) : Option Int :=
  (c.value? name).bind fun v => (Decimal.readInteger range v.toList).toOption

end Collected

end HiddenEquation.CommandLine
