import HiddenEquation.Proofs.Expr.Evaluation

/-!
# Values computed in one pass

The value of an equation can be computed while it is read from left to right: a running term
takes factors until a sum operator ends it, and then waits in a pending sum.  No tree is built,
and nothing is reassociated, so the pass gives the value of the tree whatever the operators mean.

* `Chain.Progress.Reached.step` : what has been computed stays right with every operand.
* `Chain.eval_tree` : the pass computes the value of the tree.
* `Expr.value_of_pass` : the value of a text that parses, in one pass over its symbols.
-/

namespace HiddenEquation

namespace Chain

variable {α : Type}

/-- An operand more at the end of a joined chain is an operand more of its second part. -/
theorem join_join (c d : Chain α) (p o : Operator) (y : Signed α) :
    (c.join p d).join o ⟨y, []⟩ = c.join p (d.join o ⟨y, []⟩) := by
  simp only [join, List.append_assoc, List.cons_append]

namespace Progress

/-- What a pass has computed of the chain that it has read.  A chain without sum operators is
one term; any other is a sum, and after its last sum operator comes the term being built. -/
inductive Reached (A : Arithmetic α) : Progress α → Chain α → Prop
  | term {c : Chain α} (hc : Factored c.links) : Reached A ⟨none, c.tree.eval A⟩ c
  | sum {c d : Chain α} {o : Operator} (ho : o.isAdditive = true) (hd : Factored d.links) :
    Reached A ⟨some (c.tree.eval A, o), d.tree.eval A⟩ (c.join o d)

variable {A : Arithmetic α} {p : Progress α} {c : Chain α}

theorem Reached.total_eq (h : Reached A p c) : p.total A = c.tree.eval A := by
  cases h with
  | term hc => rfl
  | sum ho hd =>
    rw [tree_join_additive _ _ ho hd]
    rfl

/-- **One more operand.**  After a sum operator all that was read waits in the pending sum;
after any other operator the operand is one more factor of the running term. -/
theorem Reached.step (h : Reached A p c) (o : Operator) (y : Signed α) :
    Reached A (p.step A (o, y)) (c.join o ⟨y, []⟩) := by
  have hy : (⟨y, []⟩ : Chain α).tree.eval A = y.eval A := y.eval_tree A
  cases ho : o.isAdditive with
  | true =>
    have hstep : p.step A (o, y) = ⟨some (c.tree.eval A, o), (⟨y, []⟩ : Chain α).tree.eval A⟩ := by
      rw [Progress.step, if_pos ho, h.total_eq, hy]
    rw [hstep]
    exact .sum ho fun l hl => absurd hl List.not_mem_nil
  | false =>
    have hvalue (d : Chain α) (hd : Factored d.links) :
        A.apply o (d.tree.eval A) (y.eval A) = (d.join o ⟨y, []⟩).tree.eval A := by
      rw [tree_join_factor d y ho hd, Expr.eval, y.eval_tree]
    rw [Progress.step, if_neg (by rw [ho]; exact Bool.false_ne_true)]
    cases h with
    | term hc =>
      dsimp only
      rw [hvalue c hc]
      exact .term (hc.concat ho y)
    | @sum c d q hq hd =>
      dsimp only
      rw [hvalue d hd, join_join]
      exact .sum hq (hd.concat ho y)

/-- The induction is at the end of the chain, where the pass reads on. -/
theorem reached_foldl (A : Arithmetic α) (x : Signed α) (links : List (Operator × Signed α)) :
    Reached A (links.foldl (Progress.step A) ⟨none, x.eval A⟩) ⟨x, links⟩ := by
  induction links using List.reverseRecOn with
  | nil =>
    have hx : (⟨x, []⟩ : Chain α).tree.eval A = x.eval A := x.eval_tree A
    rw [List.foldl_nil, ← hx]
    exact .term fun l hl => absurd hl List.not_mem_nil
  | append_singleton links l ih =>
    rw [List.foldl_append]
    exact ih.step l.1 l.2

end Progress

/-- **The pass computes the value of the tree**, for every meaning of the operators and of the
sign. -/
theorem eval_tree (A : Arithmetic α) (c : Chain α) : c.tree.eval A = c.run A :=
  (Progress.reached_foldl A c.first c.links).total_eq.symm

end Chain

namespace Expr

open Text

/-- The tree that a text is parsed to is that of any formula which the text spells. -/
theorem eq_tree_of_parse {s : List Char} {e : Expr Float} (h : parse s = .ok e) {w : Formula}
    (hw : lexemes s = w.lexemes) : e = w.floatChain.tree := by
  obtain ⟨hlegal, he⟩ := read_eq_ok_iff.1 (parse_eq_ok_iff.1 h).2
  obtain ⟨hc, hr⟩ := Chain.conventional_tree w.floatChain
  exact he.eq hlegal ⟨hc, w, hw, hr⟩

/-- **The value of a text that parses, in one pass over its symbols.**  The text spells a formula,
and the value of its tree is what the pass computes of the signed numbers and operators of that
formula: in doubles, and for every meaning of the operators and every reading of the numbers. -/
theorem value_of_pass {s : List Char} {e : Expr Float} (h : parse s = .ok e) :
    (∃ w : Formula, lexemes s = w.lexemes) ∧ ∀ w : Formula, lexemes s = w.lexemes →
      e.value = w.floatChain.run doubles ∧
      ∀ (α : Type) (f : Float → α) (A : Arithmetic α),
        (e.map f).eval A = (w.floatChain.map f).run A := by
  obtain ⟨-, -, w, hw, -⟩ := read_eq_ok_iff.1 (parse_eq_ok_iff.1 h).2
  refine ⟨⟨w, hw⟩, fun w hw => ?_⟩
  have he := eq_tree_of_parse h hw
  refine ⟨?_, fun α f A => ?_⟩
  · rw [he]
    exact Chain.eval_tree doubles w.floatChain
  · rw [he, ← Chain.tree_map]
    exact Chain.eval_tree A (w.floatChain.map f)

/-- A difference, in which the pending sum waits for a product with a signed factor. -/
theorem signed_factor_in_one_pass :
    ∃ e, parse "8/2-3*-4".toList = .ok e ∧ (e.value == 16) = true := by
  have hw : lexemes "8/2-3*-4".toList = (⟨⟨[], ['8']⟩, [(.divide, ⟨[], ['2']⟩),
      (.minus, ⟨[], ['3']⟩), (.times, ⟨[.minus], ['4']⟩)]⟩ : Formula).lexemes := by decide
  have hparse := parse_of_readExact (by decide) (readExact_eq_ok_iff.2 ⟨by decide, _, hw, rfl⟩)
  refine ⟨_, hparse, ?_⟩
  rw [((value_of_pass hparse).2 _ hw).1]
  decide

end Expr

end HiddenEquation
