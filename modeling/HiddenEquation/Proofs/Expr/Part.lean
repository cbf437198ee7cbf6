import HiddenEquation.Proofs.Expr.Grammar

/-!
# Parts of a tree

The subexpressions of a tree, the whole among them, and what is special about the parts of a tree
that a text is read to: below a quotient the divisor is always a single signed number, and every
number stands in the text.

* `Expr.HasPart` : the parts of a tree.
* `Expr.Reads.dividesByNumbers` : a conventional tree that reads a chain divides by signed numbers.
* `Expr.Reads.exists_number` : the numbers of a tree are those of the chain that it reads.
-/

namespace HiddenEquation

namespace Expr

variable {α β : Type}

/-- The second tree is a subexpression of the first, or is the first. -/
inductive HasPart : Expr α → Expr α → Prop
  | whole (e : Expr α) : HasPart e e
  | operand {e p : Expr α} (h : HasPart e p) : HasPart (.neg e) p
  | left {l p : Expr α} (o : Operator) (r : Expr α) (h : HasPart l p) : HasPart (.binary o l r) p
  | right {r p : Expr α} (o : Operator) (l : Expr α) (h : HasPart r p) : HasPart (.binary o l r) p

theorem HasPart.trans {e p q : Expr α} (h : e.HasPart p) (hq : p.HasPart q) : e.HasPart q := by
  induction h with
  | whole => exact hq
  | operand _ ih => exact .operand (ih hq)
  | left o r _ ih => exact .left o r (ih hq)
  | right o l _ ih => exact .right o l (ih hq)

theorem hasPart_number_iff {v : α} {p : Expr α} : (number v).HasPart p ↔ p = .number v := by
  constructor
  · intro h
    cases h
    rfl
  · rintro rfl
    exact .whole _

theorem hasPart_neg_iff {e p : Expr α} : (neg e).HasPart p ↔ p = .neg e ∨ e.HasPart p := by
  constructor
  · intro h
    cases h with
    | whole => exact Or.inl rfl
    | operand h => exact Or.inr h
  · rintro (rfl | h)
    · exact .whole _
    · exact .operand h

theorem hasPart_binary_iff {o : Operator} {l r p : Expr α} :
    (binary o l r).HasPart p ↔ p = .binary o l r ∨ l.HasPart p ∨ r.HasPart p := by
  constructor
  · intro h
    cases h with
    | whole => exact Or.inl rfl
    | left _ _ h => exact Or.inr (Or.inl h)
    | right _ _ h => exact Or.inr (Or.inr h)
  · rintro (rfl | h | h)
    · exact .whole _
    · exact .left o r h
    · exact .right o l h

/-- A signed number has no part with an operator in it. -/
theorem not_hasPart_signed_binary (x : Signed α) (o : Operator) (l r : Expr α) :
    ¬x.tree.HasPart (.binary o l r) := by
  obtain ⟨negated, v⟩ := x
  cases negated <;> simp [Signed.tree, hasPart_neg_iff, hasPart_number_iff]

/-! ## Parts of a tree that reads a chain -/

/-- Every divisor is a signed number. -/
def DividesByNumbers : Expr α → Prop
  | number _ => True
  | neg e => e.DividesByNumbers
  | binary o l r =>
    l.DividesByNumbers ∧ r.DividesByNumbers ∧ (o = .divide → ∃ x : Signed α, r = x.tree)

theorem dividesByNumbers_signed (x : Signed α) : x.tree.DividesByNumbers := by
  obtain ⟨negated, v⟩ := x
  cases negated <;> exact trivial

/-- A tree that binds tighter than products and reads a chain is a signed number. -/
theorem Reads.eq_signed {e : Expr α} {c : Chain α} (h : e.Reads c) (hp : 2 < e.precedence) :
    ∃ x : Signed α, e = x.tree := by
  cases h with
  | operand x => exact ⟨x, rfl⟩
  | binary o _ _ => exact absurd o.precedence_mem.2 (Nat.not_le_of_lt hp)

theorem Reads.dividesByNumbers {e : Expr α} {c : Chain α} (h : e.Reads c) (hc : e.Conventional) :
    e.DividesByNumbers := by
  induction h with
  | operand x => exact dividesByNumbers_signed x
  | binary o hl hr ihl ihr =>
    obtain ⟨-, hlt, hcl, hcr⟩ := hc
    refine ⟨ihl hcl, ihr hcr, ?_⟩
    rintro rfl
    exact hr.eq_signed hlt

end Expr

/-! ## The numbers of a tree -/

namespace Chain

variable {α : Type}

/-- The signed numbers of a chain, from left to right. -/
def operands (c : Chain α) : List (Signed α) := c.first :: c.links.map Prod.snd

theorem operands_join (c : Chain α) (o : Operator) (d : Chain α) :
    (c.join o d).operands = c.operands ++ d.operands := by
  simp [operands, join]

end Chain

namespace Formula

theorem operands_floatChain (w : Formula) : w.floatChain.operands =
    (w.first :: w.links.map Prod.snd).map fun x => x.signed.map Float.ofNat := by
  simp [floatChain, chain, signedLinks, Chain.map, Chain.operands]

/-- Every number of the chain is a run of digits of the formula. -/
theorem exists_digits {w : Formula} {x : Signed Float} (hx : x ∈ w.floatChain.operands) :
    ∃ ds, .number ds ∈ w.lexemes ∧ x.value = Decimal.digitsFloat ds := by
  rw [operands_floatChain] at hx
  obtain ⟨y, hy, rfl⟩ := List.mem_map.1 hx
  have hnumber : .number y.digits ∈ y.lexemes := by simp [Operand.lexemes]
  refine ⟨y.digits, ?_, rfl⟩
  rcases List.mem_cons.1 hy with rfl | hy
  · exact List.mem_append_left _ hnumber
  · obtain ⟨l, hl, rfl⟩ := List.mem_map.1 hy
    exact List.mem_append_right _
      (List.mem_flatMap.2 ⟨l, hl, List.mem_cons_of_mem _ hnumber⟩)

end Formula

namespace Expr

variable {α : Type}

theorem Reads.exists_number {e : Expr α} {c : Chain α} (h : e.Reads c) {v : α}
    (hv : e.HasPart (.number v)) : ∃ x ∈ c.operands, x.value = v := by
  induction h with
  | operand x =>
    refine ⟨x, List.mem_singleton_self x, ?_⟩
    obtain ⟨negated, u⟩ := x
    cases negated with
    | true => simpa [Signed.tree, hasPart_neg_iff, hasPart_number_iff, eq_comm] using hv
    | false => simpa [Signed.tree, hasPart_number_iff, eq_comm] using hv
  | binary o hl hr ihl ihr =>
    rw [Chain.operands_join]
    rcases hasPart_binary_iff.1 hv with hv | hv | hv
    · cases hv
    · obtain ⟨x, hx, hxv⟩ := ihl hv
      exact ⟨x, List.mem_append_left _ hx, hxv⟩
    · obtain ⟨x, hx, hxv⟩ := ihr hv
      exact ⟨x, List.mem_append_right _ hx, hxv⟩

/-- Every number of the tree of a text stands in the text, and is the double next to its
digits. -/
theorem exists_digits_of_parse {s : List Char} {e : Expr Float} (h : parse s = .ok e) {v : Float}
    (hv : e.HasPart (.number v)) :
    ∃ ds, .number ds ∈ Text.lexemes s ∧ v = Decimal.digitsFloat ds := by
  obtain ⟨-, -, w, hw, hreads⟩ := read_eq_ok_iff.1 (parse_eq_ok_iff.1 h).2
  obtain ⟨x, hx, rfl⟩ := hreads.exists_number hv
  rw [hw]
  exact Formula.exists_digits hx

theorem dividesByNumbers_of_parse {s : List Char} {e : Expr Float} (h : parse s = .ok e) :
    e.DividesByNumbers := by
  obtain ⟨-, hc, _, _, hreads⟩ := read_eq_ok_iff.1 (parse_eq_ok_iff.1 h).2
  exact hreads.dividesByNumbers hc

end Expr

end HiddenEquation
