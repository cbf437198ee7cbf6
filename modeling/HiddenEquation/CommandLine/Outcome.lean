import HiddenEquation.CommandLine.Invocation
import HiddenEquation.Dialogue
import HiddenEquation.Report

/-!
# Outcomes

What a run of the program leaves behind: what it printed, what it noted, and the failure it
ended with, if any.  A failure is told with all its causes, the outermost first.
-/

namespace HiddenEquation.CommandLine

/-- The name and the version of the program. -/
def versionLine : String := "mathler 1.0.0\n"

/-- The exit status for arguments that make no sense. -/
def usageStatus : Nat := 2

/-- What went wrong, and what that was caused by. -/
structure Failure where
  message : String
  causes : List String
deriving DecidableEq, Repr

namespace Failure

/-- A failure without a cause. -/
def because (message : String) : Failure := ⟨message, []⟩

/-- The causes, each on a line, with numbers when there are several. -/
def causeLines : List String → String
  | [] => ""
  | [c] => s!"\nCaused by:\n    {c}\n"
  | cs => "\nCaused by:\n" ++ String.join (cs.zipIdx.map fun c => s!"    {c.2}: {c.1}\n")

/-- The failure as it is told. -/
def text (f : Failure) : String := s!"Error: {f.message}\n" ++ causeLines f.causes

end Failure

/-- What a run leaves behind. -/
structure Outcome where
  printed : Styled
  events : List Event
  failure : Option Failure

namespace Outcome

/-- The exit status. -/
def status (o : Outcome) : Nat := if o.failure.isSome then 1 else 0

/-- All that is written beside the proper output: the log, then the failure. -/
def complaints (o : Outcome) (limit : Level) : String :=
  Event.log limit o.events ++ (o.failure.map Failure.text).getD ""

/-- An outcome with events before its own. -/
def after (o : Outcome) (events : List Event) : Outcome := { o with events := events ++ o.events }

end Outcome

/-! ## Loading the book -/

/-- The book that the settings name; `content` is what is found in the place of its file. -/
def Settings.book (s : Settings) (content : String → Book.FileContent) : Except BookError Book :=
  match s.puzzles with
  | some path => Book.ofFile (content path) s.length
  | none => Book.embedded s.length

/-- The failure when there is no such book. -/
def Settings.loadFailure (s : Settings) (e : BookError) : Failure :=
  match s.puzzles with
  | none => ⟨s!"No built-in puzzles have {s.length} characters", [e.message]⟩
  | some path =>
    { message := s!"Failed to load puzzles from {path}"
      causes :=
        match e with
        | .file f => [e.message, f.message]
        | .noPuzzles => [e.message] }

/-- The events of loading the book. -/
def Settings.loadEvents (s : Settings) (content : String → Book.FileContent) : List Event :=
  (match s.puzzles with
    | some path => Trace.file (content path) s.length
    | none => Trace.lines Book.tableLines s.length)
    ++ match s.book content with
        | .ok b => [.bookLoaded b.size b.length]
        | .error _ => []

/-! ## Commands that print one answer -/

/-- A document as it is printed. -/
def printedDocument (d : Json.Document) : Styled := Styled.plain (d.pretty ++ "\n")

namespace Outcome

/-- Checks one guess. -/
def ofQuestion (b : Book) (q : Question) (json : Bool) : Outcome :=
  let events :=
    match q.request with
    | .ok r => Trace.check b r.guess r.target
    | .error _ => []
  match b.ask q with
  | .error e => ⟨[], events, some (.because e.message)⟩
  | .ok (r, v) =>
    ⟨if json then printedDocument (Wire.verdictDocument v) else Report.verdict r.guess r.target v,
      events, none⟩

/-- Draws a puzzle. -/
def ofDraw (b : Book) (difficulty : Option UInt8) (json : Bool) (c : Chooser) : Outcome :=
  let challenge := b.challenge difficulty c
  ⟨if json then printedDocument (Wire.challengeDocument challenge) else Report.challenge challenge,
    Trace.draw b difficulty c, none⟩

/-- Audits the book; `time` is how long that took. -/
def ofAudit (b : Book) (time : String) : Outcome :=
  let r := b.audit
  ⟨Report.auditStart r.total ++ Report.audit r time, Trace.audit b,
    if r.clean then none
    else some (.because s!"{r.failures.length} of {r.total} puzzles failed the audit")⟩

/-- What a conversation leaves behind. -/
def ofTranscript (t : Dialogue.Transcript) : Outcome :=
  ⟨t.printed, t.events, t.ending.fault?.map Failure.because⟩

end Outcome

/-- Does what is asked for. -/
def Task.run (t : Task) (b : Book) (c : Chooser) (time : String) : Outcome :=
  match t with
  | .check q json => .ofQuestion b q json
  | .puzzle difficulty json => .ofDraw b difficulty json c
  | .verify => .ofAudit b time

end HiddenEquation.CommandLine
