import HiddenEquation.Decimal.Style

/-!
# Expression trees

An equation is arithmetic over numbers with four operators and a sign.  The tree is
independent of what its numbers are: `Expr.eval` takes the meaning of the operators as an
argument, so the same tree can be evaluated in doubles, in exact arithmetic, or back into
a tree.  `Expr.text` prints a tree with as few parentheses as its shape allows.
-/

namespace HiddenEquation

/-- The four operators of an equation. -/
inductive Operator where
  | plus
  | minus
  | times
  | divide
deriving DecidableEq, Repr

namespace Operator

/-- The character that stands for the operator. -/
def symbol : Operator → Char
  | plus => '+'
  | minus => '-'
  | times => '*'
  | divide => '/'

/-- The operator that a character stands for. -/
def ofChar? : Char → Option Operator
  | '+' => some plus
  | '-' => some minus
  | '*' => some times
  | '/' => some divide
  | _ => none

/-- Products and quotients bind tighter than sums and differences. -/
def precedence : Operator → Nat
  | plus | minus => 1
  | times | divide => 2

/-- Whether the operator joins terms and not factors. -/
def isAdditive : Operator → Bool
  | plus | minus => true
  | times | divide => false

@[simp] theorem ofChar?_symbol (o : Operator) : ofChar? o.symbol = some o := by cases o <;> rfl

theorem eq_symbol_of_ofChar? {c : Char} {o : Operator} (h : ofChar? c = some o) :
    c = o.symbol := by
  unfold ofChar? at h
  split at h <;> cases h <;> rfl

end Operator

/-- A meaning for the operators and for the sign. -/
structure Arithmetic (α : Type) where
  apply : Operator → α → α → α
  neg : α → α

/-- The arithmetic of doubles.  Dividing by zero gives an infinity or NaN. -/
def doubles : Arithmetic Float where
  apply
    | .plus => (· + ·)
    | .minus => (· - ·)
    | .times => (· * ·)
    | .divide => (· / ·)
  neg := (- ·)

/-- Arithmetic over numbers of type `α`. -/
inductive Expr (α : Type) where
  | number (value : α)
  | neg (operand : Expr α)
  | binary (op : Operator) (left right : Expr α)
deriving DecidableEq, Repr

namespace Expr

variable {α β : Type}

/-- The tree with every number replaced. -/
def map (f : α → β) : Expr α → Expr β
  | number v => number (f v)
  | neg e => neg (e.map f)
  | binary op l r => binary op (l.map f) (r.map f)

/-- The value of a tree, for a given meaning of the operators. -/
def eval (A : Arithmetic α) : Expr α → α
  | number v => v
  | neg e => A.neg (e.eval A)
  | binary op l r => A.apply op (l.eval A) (r.eval A)

/-- The value of a tree in doubles. -/
def value (e : Expr Float) : Float := e.eval doubles

/-- How tightly the outermost part of a tree binds. -/
def precedence : Expr α → Nat
  | number _ => 4
  | neg _ => 3
  | binary op _ _ => op.precedence

/-- A part of a printed tree, in parentheses if it needs them. -/
def grouped (needed : Bool) (text : String) : String :=
  if needed then "(" ++ text ++ ")" else text

/-- A tree as text.  The right operand is grouped already at equal precedence, since
operators of one precedence associate to the left. -/
def text (write : α → String) : Expr α → String
  | number v => write v
  | neg e => "-" ++ grouped (decide (e.precedence < 3)) (e.text write)
  | binary op l r =>
    grouped (decide (l.precedence < op.precedence)) (l.text write)
      ++ " " ++ String.singleton op.symbol ++ " "
      ++ grouped (decide (r.precedence ≤ op.precedence)) (r.text write)

/-- The tree of doubles as the player reads it. -/
def plainText (e : Expr Float) : String := e.text Decimal.plain

theorem precedence_map (f : α → β) (e : Expr α) : (e.map f).precedence = e.precedence := by
  cases e <;> rfl

end Expr

end HiddenEquation
