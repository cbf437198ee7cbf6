import HiddenEquation.Expr.Tree

/-!
# Why an equation has no value

The faults of an equation, in terms of the characters and symbols that cause them, and
their wording in one place.  Positions count characters from zero.
-/

namespace HiddenEquation

/-- What a token is: a run of digits or an operator. -/
inductive Token.Kind where
  | number
  | operator (o : Operator)
deriving DecidableEq, Repr

/-- How a kind of token is called in messages. -/
def Token.Kind.label : Token.Kind → String
  | .number => "number"
  | .operator o => "'" ++ String.singleton o.symbol ++ "'"

/-- The most characters that an equation may have, blanks included. -/
def maxLength : Nat := 1024

/-- Why a text does not have a finite value. -/
inductive ExprError where
  /-- There is nothing but blanks, or nothing at all. -/
  | empty
  /-- A character that no equation contains. -/
  | disallowed (character : Char) (index : Nat)
  /-- A symbol where another was needed. -/
  | unexpected (found : Token.Kind) (index : Nat)
  /-- The text ends where a number was needed. -/
  | endOfInput
  /-- A number of several digits that starts with a zero. -/
  | leadingZero (index : Nat)
  /-- More than `maxLength` characters. -/
  | tooLong (found : Nat)
  /-- Two equal signs side by side. -/
  | increment (index : Nat)
  /-- The value is infinite or not a number. -/
  | nonFinite (value : Float)

/-- The wording of a fault. -/
def ExprError.message : ExprError → String
  | .empty => "Expression is empty"
  | .disallowed c i => s!"Character '{c}' at position {i} is not allowed"
  | .unexpected found i => s!"Unexpected {found.label} at position {i}"
  | .endOfInput => "Unexpected end of expression"
  | .leadingZero i => s!"Number at position {i} has a leading zero"
  | .tooLong found => s!"Expression has {found} characters, at most {maxLength} are allowed"
  | .increment i => s!"Increment or decrement operator at position {i}"
  | .nonFinite v => s!"Expression does not evaluate to a finite number (got {Decimal.plain v})"

end HiddenEquation
