import HiddenEquation.Expr.Chain
import HiddenEquation.Glyph

/-!
# The value of an equation

Evaluation goes through fixed stages: `×` becomes `*`; every character must be a digit, an
operator or blank; the text must not be too long; it must spell a chain; and the value of
its tree must be finite.  The fault of the earliest stage is reported, whatever else is
wrong.
-/

namespace HiddenEquation

namespace Expr

/-- Whether an equation may contain the character. -/
def isAllowed (c : Char) : Bool :=
  c.isDigit || (Operator.ofChar? c).isSome || Text.isBlank c

/-- The first character, with its position, that no equation contains. -/
def firstDisallowed (s : List Char) : Option (Char × Nat) :=
  s.zipIdx.find? fun c => !isAllowed c.1

/-- Whether all characters are allowed; an empty text is refused too. -/
def checkAlphabet (s : List Char) : Except ExprError Unit :=
  if s = [] then .error .empty
  else
    match firstDisallowed s with
    | some (c, i) => .error (.disallowed c i)
    | none => .ok ()

/-- The tree of a text over natural numbers, of whatever length the text is. -/
def readExact (s : List Char) : Except ExprError (Expr Nat) :=
  (Chain.ofTokens (Token.scan s)).map Chain.tree

/-- The tree of a text over doubles, of whatever length the text is. -/
def read (s : List Char) : Except ExprError (Expr Float) :=
  (readExact s).map (Expr.map Float.ofNat)

/-- The tree of a text of at most `maxLength` characters. -/
def parse (s : List Char) : Except ExprError (Expr Float) :=
  if maxLength < s.length then .error (.tooLong s.length) else read s

/-- The value of a tree, which must be finite. -/
def finiteValue (e : Expr Float) : Except ExprError Float :=
  if e.value.isFinite then .ok e.value else .error (.nonFinite e.value)

/-- The value of a text. -/
def evaluate (s : List Char) : Except ExprError Float := do
  let s := s.map plainSign
  checkAlphabet s
  let e ← parse s
  e.finiteValue

end Expr

end HiddenEquation
