import HiddenEquation.Check
import HiddenEquation.Json.Document
import HiddenEquation.Json.Shape

/-!
# Wire formats

The JSON shapes of what is exchanged with other programs: a request to check a guess, the
answer to it, the description of a puzzle, and feedback alone.  Every shape has a document
that is written and a reader that takes it back.  Members that are optional are left out
when there is nothing to say.
-/

namespace HiddenEquation

open Json (Document Reader Slot)

/-- A guess that is sent in to be checked, its slots as they were typed. -/
structure Request where
  slots : List Char
  target : Int64
deriving DecidableEq

namespace Request

/-- The request for a guess. -/
def ofGuess (g : Guess) (target : Int64) : Request := ⟨g.chars, target⟩

/-- The guess that is asked about. -/
def guess (r : Request) : Guess := .ofChars r.slots

end Request

namespace Wire

/-- The name of each mark. -/
def markNames : List (List Char × Mark) :=
  [("CORRECT".toList, .correct), ("PRESENT".toList, .present), ("ABSENT".toList, .absent)]

/-- The name of a mark. -/
def markName : Mark → String
  | .correct => "CORRECT"
  | .present => "PRESENT"
  | .absent => "ABSENT"

/-! ## Writing -/

/-- A member that is left out when there is nothing to say. -/
def optionalMember {α : Type} (name : String) (f : α → Document) :
    Option α → List (String × Document)
  | some v => [(name, f v)]
  | none => []

/-- The document of feedback. -/
def feedbackDocument (f : Feedback) : Document :=
  .array (f.marks.map fun m => .text (markName m).toList)

/-- The document of a request. -/
def requestDocument (r : Request) : Document :=
  .object
    [("guess", .array (r.slots.map fun c => .text [c])), ("targetValue", .integer r.target.toInt)]

/-- The document of a verdict. -/
def verdictDocument (v : Verdict) : Document :=
  .object
    ([("states", feedbackDocument v.feedback), ("valid", .bool v.valid),
      ("solved", .bool v.solved)]
      ++ optionalMember "calculatedValue" .double v.value
      ++ optionalMember "message" (fun m => .text m.toList) v.message)

/-- The document of a challenge. -/
def challengeDocument (c : Challenge) : Document :=
  .object
    [("targetValue", .integer c.target.toInt), ("difficulty", .integer c.difficulty.toNat),
     ("equationLength", .integer c.length)]

/-! ## Reading -/

/-- Reads feedback. -/
def feedbackReader : Reader Feedback := (Reader.variant markNames).array.map Feedback.mk

/-- Reads a target. -/
def targetReader : Reader Int64 := (Reader.integer .int64).map Int64.ofInt

/-- The members of a request. -/
def requestSlots : List (Slot Request) :=
  [.required "guess" Reader.character.array fun v r => { r with slots := v },
   .required "targetValue" targetReader fun v r => { r with target := v }]

/-- Reads a request. -/
def requestReader : Reader Request := .record requestSlots ⟨[], 0⟩

/-- The members of a verdict. -/
def verdictSlots : List (Slot Verdict) :=
  [.required "states" feedbackReader fun v r => { r with feedback := v },
   .required "valid" Reader.bool fun v r => { r with valid := v },
   .required "solved" Reader.bool fun v r => { r with solved := v },
   .ofOption "calculatedValue" Reader.double fun v r => { r with value := v },
   .ofOption "message" (Reader.text.map String.ofList) fun v r => { r with message := v }]

/-- Reads a verdict. -/
def verdictReader : Reader Verdict := .record verdictSlots ⟨⟨[]⟩, false, false, none, none⟩

/-- The members of a challenge. -/
def challengeSlots : List (Slot Challenge) :=
  [.required "targetValue" targetReader fun v r => { r with target := v },
   .required "difficulty" ((Reader.integer .uint8).map fun n => UInt8.ofNat n.toNat)
     fun v r => { r with difficulty := v },
   .required "equationLength" ((Reader.integer .uint64).map Int.toNat)
     fun v r => { r with length := v }]

/-- Reads a challenge. -/
def challengeReader : Reader Challenge := .record challengeSlots ⟨0, 0, 0⟩

/-- Reads a whole text of a shape. -/
def decode {α : Type} (r : Reader α) (text : String) : Except Json.Fault α :=
  r.readAll text.toList

end Wire

end HiddenEquation
