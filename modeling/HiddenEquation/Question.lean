import HiddenEquation.Book
import HiddenEquation.Wire

/-!
# Questions about a guess

A single guess is asked about either as an equation with a target or as the JSON text of a
request.  Both come down to a request, which a book answers with a verdict.
-/

namespace HiddenEquation

/-- A guess to be checked. -/
inductive Question where
  | equation (text : List Char) (target : Int64)
  | json (text : List Char)
deriving DecidableEq

/-- Why a question has no answer. -/
inductive QuestionError where
  | malformed (fault : Json.Fault)
  | check (e : CheckError)

/-- The name of a fault in JSON text. -/
def Json.Fault.name : Json.Fault → String
  | .mismatch => "data of another shape"
  | .malformed => "syntax error"
  | .cutShort => "unexpected end"

/-- The wording of an error. -/
def QuestionError.message : QuestionError → String
  | .malformed f => s!"Malformed guess request: {f.name}"
  | .check e => e.message

namespace Question

/-- The request that a question comes down to. -/
def request : Question → Except Json.Fault Request
  | .equation text target => .ok (.ofGuess (.ofChars text) target)
  | .json text => Wire.requestReader.readAll text

end Question

/-- Answers a request. -/
def Book.answer (b : Book) (r : Request) : Except CheckError Verdict := b.check r.guess r.target

/-- Answers a question, and gives the request that it came down to. -/
def Book.ask (b : Book) (q : Question) : Except QuestionError (Request × Verdict) :=
  match q.request with
  | .error f => .error (.malformed f)
  | .ok r =>
    match b.answer r with
    | .error e => .error (.check e)
    | .ok v => .ok (r, v)

end HiddenEquation
