import HiddenEquation.Audit
import HiddenEquation.Book
import HiddenEquation.Check
import HiddenEquation.CommandLine.Argument
import HiddenEquation.CommandLine.Invocation
import HiddenEquation.CommandLine.Outcome
import HiddenEquation.Decimal.Binary64
import HiddenEquation.Decimal.Integer
import HiddenEquation.Decimal.Shortest
import HiddenEquation.Decimal.Style
import HiddenEquation.Dialogue
import HiddenEquation.Draw
import HiddenEquation.Entry
import HiddenEquation.Event
import HiddenEquation.Expr.Chain
import HiddenEquation.Expr.Error
import HiddenEquation.Expr.Evaluate
import HiddenEquation.Expr.Token
import HiddenEquation.Expr.Tree
import HiddenEquation.Feedback
import HiddenEquation.Glyph
import HiddenEquation.Guess
import HiddenEquation.Json.Document
import HiddenEquation.Json.Number
import HiddenEquation.Json.Reader
import HiddenEquation.Json.Shape
import HiddenEquation.Json.Skip
import HiddenEquation.Json.Text
import HiddenEquation.Main
import HiddenEquation.Play.Frame
import HiddenEquation.Play.Game
import HiddenEquation.Play.Key
import HiddenEquation.Play.Message
import HiddenEquation.Play.Tally
import HiddenEquation.Proofs.Audit.Complete
import HiddenEquation.Proofs.Audit.Winnable
import HiddenEquation.Proofs.Book.Alike
import HiddenEquation.Proofs.Book.Draw
import HiddenEquation.Proofs.Book.Entry
import HiddenEquation.Proofs.Book.Line
import HiddenEquation.Proofs.Book.Table
import HiddenEquation.Proofs.Check.Contract
import HiddenEquation.Proofs.Check.Exact
import HiddenEquation.Proofs.Check.Target
import HiddenEquation.Proofs.Decimal.Exact
import HiddenEquation.Proofs.Decimal.Finite
import HiddenEquation.Proofs.Decimal.Nearest
import HiddenEquation.Proofs.Decimal.Plain
import HiddenEquation.Proofs.Decimal.Rational
import HiddenEquation.Proofs.Decimal.Rounding
import HiddenEquation.Proofs.Decimal.Shortest
import HiddenEquation.Proofs.Decimal.Unpacked
import HiddenEquation.Proofs.Dialogue.Course
import HiddenEquation.Proofs.Dialogue.Secrecy
import HiddenEquation.Proofs.Dialogue.Winning
import HiddenEquation.Proofs.Except
import HiddenEquation.Proofs.Expr.Continuation
import HiddenEquation.Proofs.Expr.Conventional
import HiddenEquation.Proofs.Expr.Evaluation
import HiddenEquation.Proofs.Expr.Exhaustion
import HiddenEquation.Proofs.Expr.Fault
import HiddenEquation.Proofs.Expr.Finite
import HiddenEquation.Proofs.Expr.Grammar
import HiddenEquation.Proofs.Expr.Lexeme
import HiddenEquation.Proofs.Expr.Numeral
import HiddenEquation.Proofs.Expr.Part
import HiddenEquation.Proofs.Expr.Pass
import HiddenEquation.Proofs.Expr.Reprint
import HiddenEquation.Proofs.Expr.Shape
import HiddenEquation.Proofs.Expr.Span
import HiddenEquation.Proofs.Expr.Stages
import HiddenEquation.Proofs.Expr.Unambiguous
import HiddenEquation.Proofs.Feedback.Matching
import HiddenEquation.Proofs.Feedback.Totals
import HiddenEquation.Proofs.Json.Layout
import HiddenEquation.Proofs.Json.Numeral
import HiddenEquation.Proofs.Json.Reading
import HiddenEquation.Proofs.Play.Consistent
import HiddenEquation.Proofs.Play.Drawn
import HiddenEquation.Proofs.Play.Frame
import HiddenEquation.Proofs.Play.Guessing
import HiddenEquation.Proofs.Play.News
import HiddenEquation.Proofs.Play.Rounds
import HiddenEquation.Proofs.Play.Step
import HiddenEquation.Proofs.Play.Typing
import HiddenEquation.Proofs.Round.Finality
import HiddenEquation.Proofs.Round.History
import HiddenEquation.Proofs.Round.Submission
import HiddenEquation.Proofs.Screen.Pane
import HiddenEquation.Proofs.Wire.Exact
import HiddenEquation.Proofs.Wire.Question
import HiddenEquation.Proofs.Wire.Verdict
import HiddenEquation.Puzzle
import HiddenEquation.Question
import HiddenEquation.Report
import HiddenEquation.Round
import HiddenEquation.Screen.Pane
import HiddenEquation.Shelf
import HiddenEquation.Styled
import HiddenEquation.Text.Blank
import HiddenEquation.Text.Pieces
import HiddenEquation.Text.Quoted
import HiddenEquation.Text.Shapeless
import HiddenEquation.Trace
import HiddenEquation.Wire
