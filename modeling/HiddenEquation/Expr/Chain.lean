import HiddenEquation.Expr.Token

/-!
# Chains: equations without their tree

Without parentheses an equation is a chain: a signed number, then operators each followed
by a signed number.  `Chain.ofTokens` reads a chain off the tokens; precedence comes after
that.  `Chain.sum` groups the chain into terms and each term into factors, and `Chain.tree`
is the conventional tree.  `Chain.run` computes the value from left to right in one pass,
with a running term and a pending sum, and builds no tree.
-/

namespace HiddenEquation

/-- A number with its folded signs: an odd number of minus signs negates. -/
structure Signed (α : Type) where
  negated : Bool
  value : α
deriving DecidableEq, Repr

namespace Signed

variable {α β : Type}

/-- The signed number as a tree. -/
def tree (x : Signed α) : Expr α := if x.negated then .neg (.number x.value) else .number x.value

/-- The value of the signed number. -/
def eval (A : Arithmetic α) (x : Signed α) : α := if x.negated then A.neg x.value else x.value

/-- The same sign before another number. -/
def map (f : α → β) (x : Signed α) : Signed β := ⟨x.negated, f x.value⟩

theorem eval_tree (A : Arithmetic α) (x : Signed α) : x.tree.eval A = x.eval A := by
  unfold tree eval
  split <;> rfl

end Signed

/-- A signed number and the operators and signed numbers after it. -/
structure Chain (α : Type) where
  first : Signed α
  links : List (Operator × Signed α)
deriving DecidableEq, Repr

/-- A product or quotient of signed numbers, or a single one. -/
structure Term (α : Type) where
  first : Signed α
  factors : List (Operator × Signed α)
deriving DecidableEq, Repr

/-- A sum or difference of terms, or a single one. -/
structure Sum (α : Type) where
  first : Term α
  summands : List (Operator × Term α)
deriving DecidableEq, Repr

/-- The tree of a term, grouped to the left. -/
def Term.tree {α : Type} (t : Term α) : Expr α :=
  t.factors.foldl (fun e f => .binary f.1 e f.2.tree) t.first.tree

/-- The tree of a sum, grouped to the left. -/
def Sum.tree {α : Type} (s : Sum α) : Expr α :=
  s.summands.foldl (fun e t => .binary t.1 e t.2.tree) s.first.tree

namespace Chain

variable {α β : Type}

/-- The chain with every number replaced. -/
def map (f : α → β) (c : Chain α) : Chain β :=
  ⟨c.first.map f, c.links.map fun l => (l.1, l.2.map f)⟩

/-- Groups a signed number and what follows it into terms: `*` and `/` go on with a term,
`+` and `-` end it. -/
def group (x : Signed α) : List (Operator × Signed α) → Sum α
  | [] => ⟨⟨x, []⟩, []⟩
  | (o, y) :: links =>
    let s := group y links
    if o.isAdditive then ⟨⟨x, []⟩, (o, s.first) :: s.summands⟩
    else ⟨⟨x, (o, s.first.first) :: s.first.factors⟩, s.summands⟩

/-- The chain as a sum of terms. -/
def sum (c : Chain α) : Sum α := group c.first c.links

/-- The conventional tree: `*` and `/` bind tighter than `+` and `-`, and operators of one
precedence associate to the left. -/
def tree (c : Chain α) : Expr α := c.sum.tree

/-! ## Evaluation in one pass -/

/-- What has been computed of a chain: the term being built, and the sum before it with the
operator that will join the two. -/
structure Progress (α : Type) where
  pending : Option (α × Operator)
  term : α

/-- The value so far, if the chain ended here. -/
def Progress.total (A : Arithmetic α) (p : Progress α) : α :=
  match p.pending with
  | none => p.term
  | some (s, o) => A.apply o s p.term

/-- Takes one operator and one signed number. -/
def Progress.step (A : Arithmetic α) (p : Progress α) (l : Operator × Signed α) : Progress α :=
  if l.1.isAdditive then ⟨some (p.total A, l.1), l.2.eval A⟩
  else ⟨p.pending, A.apply l.1 p.term (l.2.eval A)⟩

/-- The value of a chain, computed from left to right.  The first term is not added to
anything. -/
def run (A : Arithmetic α) (c : Chain α) : α :=
  (c.links.foldl (Progress.step A) ⟨none, c.first.eval A⟩).total A

/-! ## Reading a chain off the tokens -/

mutual

/-- Reads signs and a number, then the links after it. -/
def readOperand (fault : Option ExprError) (negated : Bool) :
    List Token → Except ExprError (Signed Nat × List (Operator × Signed Nat))
  | [] => .error (fault.getD .endOfInput)
  | t :: rest =>
    match t.kind with
    | .number =>
      match readLinks fault rest with
      | .ok links => .ok (⟨negated, t.value⟩, links)
      | .error e => .error e
    | .operator .plus => readOperand fault negated rest
    | .operator .minus => readOperand fault (!negated) rest
    | .operator .times => .error (.unexpected t.kind t.start)
    | .operator .divide => .error (.unexpected t.kind t.start)

/-- Reads operators, each with its operand, to the end. -/
def readLinks (fault : Option ExprError) :
    List Token → Except ExprError (List (Operator × Signed Nat))
  | [] =>
    match fault with
    | none => .ok []
    | some e => .error e
  | t :: rest =>
    match t.kind with
    | .number => .error (.unexpected t.kind t.start)
    | .operator o =>
      match readOperand fault false rest with
      | .ok (x, links) => .ok ((o, x) :: links)
      | .error e => .error e

end

/-- The chain that the tokens spell.  A fault of the text counts where its tokens end. -/
def ofTokens (s : Token.Scan) : Except ExprError (Chain Nat) :=
  if s.tokens = [] ∧ s.fault.isNone then .error .empty
  else
    match readOperand s.fault false s.tokens with
    | .ok (x, links) => .ok ⟨x, links⟩
    | .error e => .error e

end Chain

end HiddenEquation
