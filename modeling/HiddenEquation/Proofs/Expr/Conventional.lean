import HiddenEquation.Expr.Chain
import Mathlib.Data.List.Induction

/-!
# Conventional trees

Which tree an equation without parentheses stands for, said by the tree alone.  A tree
`Expr.Reads` a chain if its signed numbers and operators are, from left to right, those of
the chain; it is `Expr.Conventional` if below every operator the left operand binds at
least as tightly and the right operand more tightly, so that it needs no parentheses.

* `Chain.conventional_tree`, `Chain.eq_tree_of_reads` : among the trees that read a chain exactly
  one is conventional, and it is `Chain.tree`.
* `Chain.tree_map` : replacing numbers and building the tree commute.
-/

namespace HiddenEquation

namespace Operator

theorem precedence_of_isAdditive {o : Operator} (h : o.isAdditive = true) : o.precedence = 1 := by
  cases o <;> trivial

theorem precedence_of_not_isAdditive {o : Operator} (h : o.isAdditive = false) :
    o.precedence = 2 := by
  cases o <;> trivial

theorem isAdditive_of_one_lt_precedence {o : Operator} (h : 1 < o.precedence) :
    o.isAdditive = false := by
  cases ho : o.isAdditive with
  | false => rfl
  | true => exact absurd (precedence_of_isAdditive ho) (Nat.ne_of_gt h)

theorem precedence_mem (o : Operator) : 1 ≤ o.precedence ∧ o.precedence ≤ 2 := by
  cases o <;> decide

end Operator

namespace Chain

variable {α β : Type}

/-- Two chains with an operator between them. -/
def join (c : Chain α) (o : Operator) (d : Chain α) : Chain α :=
  ⟨c.first, c.links ++ (o, d.first) :: d.links⟩

theorem map_join (f : α → β) (c : Chain α) (o : Operator) (d : Chain α) :
    (c.join o d).map f = (c.map f).join o (d.map f) := by
  simp [map, join]

/-- No operator of the chain joins terms. -/
def Factored (links : List (Operator × Signed α)) : Prop := ∀ l ∈ links, l.1.isAdditive = false

end Chain

namespace Expr

variable {α β : Type}

/-- The operands and operators of the tree are, from left to right, those of the chain. -/
inductive Reads : Expr α → Chain α → Prop
  | operand (x : Signed α) : Reads x.tree ⟨x, []⟩
  | binary {l r : Expr α} {c d : Chain α} (o : Operator) (hl : Reads l c) (hr : Reads r d) :
    Reads (.binary o l r) (c.join o d)

/-- Products and quotients bind tighter than sums and differences, and operators of one
precedence associate to the left. -/
def Conventional : Expr α → Prop
  | number _ => True
  | neg e => e.Conventional
  | binary o l r =>
    o.precedence ≤ l.precedence ∧ o.precedence < r.precedence ∧ l.Conventional ∧ r.Conventional

theorem conventional_signed (x : Signed α) : x.tree.Conventional := by
  obtain ⟨negated, v⟩ := x
  cases negated <;> exact trivial

theorem two_lt_precedence_signed (x : Signed α) : 2 < x.tree.precedence := by
  obtain ⟨negated, v⟩ := x
  cases negated
  · exact Nat.lt_succ_of_lt (Nat.lt_succ_self 2)
  · exact Nat.lt_succ_self 2

theorem precedence_pos (e : Expr α) : 1 ≤ e.precedence := by
  cases e with
  | number v => exact Nat.succ_le_succ (Nat.zero_le 3)
  | neg e => exact Nat.succ_le_succ (Nat.zero_le 2)
  | binary o l r => exact o.precedence_mem.1

theorem conventional_map (f : α → β) (e : Expr α) : (e.map f).Conventional ↔ e.Conventional := by
  induction e with
  | number v => exact Iff.rfl
  | neg e ih => exact ih
  | binary o l r ihl ihr => simp only [map, Conventional, precedence_map, ihl, ihr]

theorem Reads.map (f : α → β) {e : Expr α} {c : Chain α} (h : e.Reads c) :
    (e.map f).Reads (c.map f) := by
  induction h with
  | operand x =>
    have hx : (x.map f).tree = x.tree.map f := by
      obtain ⟨negated, v⟩ := x
      cases negated <;> rfl
    rw [← hx]
    exact Reads.operand (x.map f)
  | @binary l r c d o _ _ ihl ihr =>
    rw [Chain.map_join]
    exact Reads.binary o ihl ihr

/-- A tree that binds tighter than sums reads no `+` and no `-`. -/
theorem Reads.factored {e : Expr α} {c : Chain α} (h : e.Reads c) (hc : e.Conventional)
    (hp : 1 < e.precedence) : Chain.Factored c.links := by
  induction h with
  | operand x => intro l hl; exact absurd hl List.not_mem_nil
  | binary o _ _ ihl ihr =>
    obtain ⟨hle, hlt, hcl, hcr⟩ := hc
    have ho : 1 < o.precedence := hp
    intro l hl
    rcases List.mem_append.1 hl with hl | hl
    · exact ihl hcl (Nat.lt_of_lt_of_le ho hle) l hl
    · rcases List.mem_cons.1 hl with rfl | hl
      · exact Operator.isAdditive_of_one_lt_precedence ho
      · exact ihr hcr (Nat.lt_trans ho hlt) l hl

/-- A tree that binds tighter than products reads a single operand. -/
theorem Reads.links_eq_nil {e : Expr α} {c : Chain α} (h : e.Reads c) (hp : 2 < e.precedence) :
    c.links = [] := by
  cases h with
  | operand x => rfl
  | binary o _ _ => exact absurd o.precedence_mem.2 (Nat.not_le_of_lt hp)

end Expr

namespace Chain

variable {α β : Type}

/-! ## Building the tree at an operator -/

theorem group_of_factored (x : Signed α) {links : List (Operator × Signed α)}
    (h : Factored links) : group x links = ⟨⟨x, links⟩, []⟩ := by
  induction links generalizing x with
  | nil => rfl
  | cons l links ih =>
    obtain ⟨o, y⟩ := l
    have ho : o.isAdditive = false := h (o, y) (by simp)
    rw [group, ih y fun l hl => h l (by simp [hl]), ho]
    rfl

/-- Grouping goes on from left to right: a last sum operator opens a last term. -/
theorem group_append (x y : Signed α) {o : Operator} (ho : o.isAdditive = true)
    (ls : List (Operator × Signed α)) {rs : List (Operator × Signed α)} (h : Factored rs) :
    group x (ls ++ (o, y) :: rs) =
      ⟨(group x ls).first, (group x ls).summands ++ [(o, ⟨y, rs⟩)]⟩ := by
  induction ls generalizing x with
  | nil =>
    simp only [List.nil_append, group, group_of_factored y h, ho, if_true]
  | cons l ls ih =>
    obtain ⟨p, z⟩ := l
    simp only [List.cons_append, group, ih z]
    cases p.isAdditive <;> rfl

theorem tree_join_additive (c d : Chain α) {o : Operator} (ho : o.isAdditive = true)
    (h : Factored d.links) : (c.join o d).tree = .binary o c.tree d.tree := by
  have hd : d.tree = Term.tree ⟨d.first, d.links⟩ := by
    rw [tree, sum, group_of_factored d.first h]
    rfl
  rw [hd, tree, sum, join, group_append c.first d.first ho c.links h, Sum.tree,
    List.foldl_append]
  rfl

theorem Factored.concat {links : List (Operator × Signed α)} (h : Factored links) {o : Operator}
    (ho : o.isAdditive = false) (y : Signed α) : Factored (links ++ [(o, y)]) := by
  intro l hl
  rcases List.mem_append.1 hl with hl | hl
  · exact h l hl
  · rw [List.mem_singleton.1 hl]
    exact ho

theorem tree_join_factor (c : Chain α) (y : Signed α) {o : Operator} (ho : o.isAdditive = false)
    (h : Factored c.links) : (c.join o ⟨y, []⟩).tree = .binary o c.tree y.tree := by
  rw [tree, sum, join, group_of_factored c.first (h.concat ho y), tree, sum,
    group_of_factored c.first h]
  simp [Sum.tree, Term.tree]

/-! ## The conventional tree of a chain -/

/-- A chain without sum operators, or one cut at its last sum operator. -/
theorem factored_or_exists_append (links : List (Operator × Signed α)) :
    Factored links ∨ ∃ ls o y rs, links = ls ++ (o, y) :: rs ∧ o.isAdditive = true ∧
      Factored rs := by
  induction links with
  | nil => exact Or.inl fun l hl => absurd hl List.not_mem_nil
  | cons l links ih =>
    obtain ⟨p, z⟩ := l
    rcases ih with h | ⟨ls, o, y, rs, rfl, ho, hrs⟩
    · cases hp : p.isAdditive with
      | true => exact Or.inr ⟨[], p, z, links, rfl, hp, h⟩
      | false =>
        refine Or.inl fun l hl => ?_
        rcases List.mem_cons.1 hl with rfl | hl
        · exact hp
        · exact h l hl
    · exact Or.inr ⟨(p, z) :: ls, o, y, rs, rfl, ho, hrs⟩

theorem tree_of_factored (x : Signed α) {links : List (Operator × Signed α)}
    (h : Factored links) : 1 < (tree ⟨x, links⟩).precedence ∧ (tree ⟨x, links⟩).Conventional ∧
      (tree ⟨x, links⟩).Reads ⟨x, links⟩ := by
  induction links using List.reverseRecOn with
  | nil =>
    exact ⟨Nat.lt_of_succ_lt (Expr.two_lt_precedence_signed x),
      Expr.conventional_signed x, Expr.Reads.operand x⟩
  | append_singleton links l ih =>
    obtain ⟨o, y⟩ := l
    have ho : o.isAdditive = false := h (o, y) (by simp)
    have hlinks : Factored links := fun l hl => h l (by simp [hl])
    obtain ⟨hp, hc, hr⟩ := ih hlinks
    have htree := tree_join_factor ⟨x, links⟩ y ho hlinks
    have hprec := Operator.precedence_of_not_isAdditive ho
    rw [show (⟨x, links ++ [(o, y)]⟩ : Chain α) = join ⟨x, links⟩ o ⟨y, []⟩ from rfl, htree]
    refine ⟨?_, ⟨?_, ?_, hc, Expr.conventional_signed y⟩, hr.binary o (Expr.Reads.operand y)⟩
    · rw [Expr.precedence, hprec]
      decide
    · rw [hprec]
      exact hp
    · rw [hprec]
      exact Expr.two_lt_precedence_signed y

/-- The tree of a chain is conventional and reads the chain.  The induction is on the number
of links: a chain with sum operators is cut at the last one. -/
theorem conventional_tree (c : Chain α) : c.tree.Conventional ∧ c.tree.Reads c := by
  obtain ⟨x, links⟩ := c
  induction hn : links.length using Nat.strongRecOn generalizing links with
  | ind n ih =>
    subst hn
    rcases factored_or_exists_append links with h | ⟨ls, o, y, rs, rfl, ho, hrs⟩
    · exact (tree_of_factored x h).2
    · obtain ⟨hcl, hrl⟩ := ih ls.length (by simp) ls rfl
      obtain ⟨hpr, hcr, hrr⟩ := tree_of_factored y hrs
      have hprec := Operator.precedence_of_isAdditive ho
      have htree := tree_join_additive ⟨x, ls⟩ ⟨y, rs⟩ ho hrs
      rw [show (⟨x, ls ++ (o, y) :: rs⟩ : Chain α) = join ⟨x, ls⟩ o ⟨y, rs⟩ from rfl, htree]
      refine ⟨⟨?_, ?_, hcl, hcr⟩, hrl.binary o hrr⟩
      · rw [hprec]
        exact Expr.precedence_pos _
      · rw [hprec]
        exact hpr

/-- A conventional tree is determined by the chain that it reads. -/
theorem eq_tree_of_reads {e : Expr α} {c : Chain α} (h : e.Reads c) (hc : e.Conventional) :
    e = c.tree := by
  induction h with
  | operand x => rfl
  | @binary l r c d o hl hr ihl ihr =>
    obtain ⟨hle, hlt, hcl, hcr⟩ := hc
    cases ho : o.isAdditive with
    | true =>
      have hfactored : Factored d.links :=
        hr.factored hcr (Nat.lt_of_le_of_lt o.precedence_mem.1 hlt)
      rw [tree_join_additive c d ho hfactored, ← ihl hcl, ← ihr hcr]
    | false =>
      have hprec := Operator.precedence_of_not_isAdditive ho
      rw [hprec] at hle hlt
      obtain ⟨y, links⟩ := d
      obtain rfl : links = [] := hr.links_eq_nil hlt
      rw [tree_join_factor c y ho (hl.factored hcl hle), ← ihl hcl, ihr hcr]
      rfl

/-- Replacing numbers and building the tree commute. -/
theorem tree_map (f : α → β) (c : Chain α) : (c.map f).tree = c.tree.map f := by
  obtain ⟨hc, hr⟩ := conventional_tree c
  exact (eq_tree_of_reads (hr.map f) ((Expr.conventional_map f c.tree).2 hc)).symm

end Chain

end HiddenEquation
