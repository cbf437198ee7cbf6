import HiddenEquation.Proofs.Expr.Grammar
import Mathlib.Tactic.Tauto

/-!
# Texts that may follow

While a text is read, either an operand is awaited or the text may end and otherwise goes on with
an operator.  `Text.Continues` says with which texts reading ends well from each of the two, and
its equations follow a text in the order of reading, like those of the scanner.

* `Text.continues_operator_iff`, `Text.continues_digits_append_iff` : one symbol more in front.
* `Text.continues_nil_or_one` : from either state an equation is at most one digit away.
-/

namespace HiddenEquation

/-- What reading waits for: an operand, or the end and otherwise an operator. -/
inductive Awaited where
  | operand
  | link
deriving DecidableEq, Repr

/-! ## Symbols that spell a formula -/

theorem Operator.exists_sign_iff (o : Operator) :
    (∃ s : Sign, o = s.operator) ↔ o.isAdditive = true := by
  constructor
  · rintro ⟨s, rfl⟩
    cases s <;> rfl
  · intro ho
    rcases Chain.eq_sign_or_forall_ne o with hsign | hne
    · exact hsign
    · cases o with
      | plus => exact absurd rfl (hne .plus)
      | minus => exact absurd rfl (hne .minus)
      | times => cases ho
      | divide => cases ho

namespace Formula

variable {o : Operator} {ls : List Lexeme}

theorem exists_lexemes_number_iff {ds : List Char} :
    (∃ w : Formula, .number ds :: ls = w.lexemes) ↔ ∃ ws, ls = linkLexemes ws := by
  constructor
  · rintro ⟨w, hw⟩
    exact ⟨w.links, (lexemes_eq_number_cons hw.symm).2.symm⟩
  · rintro ⟨ws, rfl⟩
    exact ⟨⟨⟨[], ds⟩, ws⟩, rfl⟩

/-- Of the operators only a sign begins a formula. -/
theorem exists_lexemes_operator_iff : (∃ w : Formula, .operator o :: ls = w.lexemes) ↔
    o.isAdditive = true ∧ ∃ w : Formula, ls = w.lexemes := by
  rw [← o.exists_sign_iff]
  constructor
  · rintro ⟨w, hw⟩
    obtain ⟨s, x, ho, -, hx⟩ := lexemes_eq_operator_cons hw.symm
    exact ⟨⟨s, ho⟩, ⟨x, w.links⟩, hx.symm⟩
  · rintro ⟨⟨s, rfl⟩, w, rfl⟩
    exact ⟨⟨w.first.signBy s, w.links⟩, rfl⟩

theorem exists_linkLexemes_operator_iff :
    (∃ ws, .operator o :: ls = linkLexemes ws) ↔ ∃ w : Formula, ls = w.lexemes := by
  constructor
  · rintro ⟨ws, hws⟩
    obtain ⟨p, x, rest, -, -, hx⟩ := linkLexemes_eq_cons hws.symm
    exact ⟨⟨x, rest⟩, hx.symm⟩
  · rintro ⟨w, rfl⟩
    exact ⟨(o, w.first) :: w.links, rfl⟩

theorem number_cons_ne_linkLexemes {ds : List Char} (ws : List (Operator × Operand)) :
    .number ds :: ls ≠ linkLexemes ws := by
  intro hws
  obtain ⟨p, x, rest, -, hl, -⟩ := linkLexemes_eq_cons hws.symm
  cases hl

end Formula

/-! ## Texts that may follow -/

namespace Text

/-- The texts with which reading can end well: where an operand is awaited they are the equations,
and after an operand they are operators, each with its operand. -/
def Continues : Awaited → List Char → Prop
  | .operand, s => Expr.IsEquation s
  | .link, s => Legal s ∧ ∃ ws, lexemes s = Formula.linkLexemes ws

theorem continues_nil_iff (k : Awaited) : Continues k [] ↔ k = .link := by
  cases k with
  | operand =>
    refine iff_of_false ?_ (by decide)
    rintro ⟨-, w, hw⟩
    exact w.lexemes_ne_nil hw.symm
  | link => exact iff_of_true ⟨legal_nil, [], rfl⟩ rfl

theorem continues_blank_iff (k : Awaited) {c : Char} (hb : isBlank c = true) (s : List Char) :
    Continues k (c :: s) ↔ Continues k s := by
  cases k <;> simp only [Continues, Expr.IsEquation, legal_blank_iff hb, lexemes_blank hb]

/-- After an operator an operand is awaited, and where one is awaited already, the operator must
be a sign. -/
theorem continues_operator_iff (k : Awaited) (o : Operator) (s : List Char) :
    Continues k (o.symbol :: s) ↔ (k = .operand → o.isAdditive = true) ∧
      ¬(o.isAdditive = true ∧ s.head? = some o.symbol) ∧ Continues .operand s := by
  cases k with
  | operand =>
    simp only [Continues, Expr.IsEquation, legal_operator_iff, lexemes_operator,
      Formula.exists_lexemes_operator_iff, forall_const]
    tauto
  | link =>
    simp only [Continues, Expr.IsEquation, legal_operator_iff, lexemes_operator,
      Formula.exists_linkLexemes_operator_iff, reduceCtorEq, false_imp_iff, true_and, and_assoc]

theorem continues_digits_append_iff (k : Awaited) {ds s : List Char} (hne : ds ≠ [])
    (hds : ∀ c ∈ ds, c.isDigit = true) (hs : ∀ c ∈ s.head?, c.isDigit = false) :
    Continues k (ds ++ s) ↔
      k = .operand ∧ ¬(1 < ds.length ∧ ds.head? = some '0') ∧ Continues .link s := by
  cases k with
  | operand =>
    simp only [Continues, Expr.IsEquation, legal_digits_append_iff hne hds hs,
      lexemes_digits_append hne hds hs, Formula.exists_lexemes_number_iff, true_and, and_assoc]
  | link =>
    refine iff_of_false ?_ (by simp)
    rintro ⟨-, ws, hws⟩
    rw [lexemes_digits_append hne hds hs] at hws
    exact Formula.number_cons_ne_linkLexemes ws hws

theorem not_continues_other (k : Awaited) {c : Char} (hb : isBlank c = false)
    (hd : c.isDigit = false) (ho : Operator.ofChar? c = none) (s : List Char) :
    ¬Continues k (c :: s) := by
  have hlegal := not_legal_other hb hd ho s
  cases k with
  | operand => exact fun h => hlegal h.1
  | link => exact fun h => hlegal h.1

/-- The digits from a digit on, as far as they go. -/
theorem exists_run {c : Char} (hc : c.isDigit = true) (s : List Char) :
    ∃ ds r, s = ds ++ r ∧ (∀ d ∈ c :: ds, d.isDigit = true) ∧ ∀ d ∈ r.head?, d.isDigit = false := by
  refine ⟨s.takeWhile Char.isDigit, s.dropWhile Char.isDigit,
    List.takeWhile_append_dropWhile.symm, fun d hd => ?_, fun d hd => ?_⟩
  · rcases List.mem_cons.1 hd with rfl | hd
    · exact hc
    · exact List.mem_takeWhile_imp hd
  · have hhead := List.head?_dropWhile_not Char.isDigit s
    rw [Option.mem_def] at hd
    simpa [hd] using hhead

/-- After an operand comes no digit. -/
theorem not_continues_link_digit {c : Char} (hc : c.isDigit = true) (s : List Char) :
    ¬Continues .link (c :: s) := by
  obtain ⟨ds, r, rfl, hds, hr⟩ := exists_run hc s
  rw [← List.cons_append, continues_digits_append_iff .link (List.cons_ne_nil c ds) hds hr]
  exact fun h => by cases h.1

/-- No number goes on after a zero at its front. -/
theorem not_continues_zero_digit (k : Awaited) {d : Char} (hd : d.isDigit = true)
    (s : List Char) : ¬Continues k ('0' :: d :: s) := by
  obtain ⟨ds, r, hs, hds, hr⟩ := exists_run (c := '0') (by decide) (d :: s)
  have hlen : 1 < ('0' :: ds).length := by
    cases ds with
    | nil =>
      have hfalse := hr d (by rw [← hs.trans (List.nil_append r)]; rfl)
      rw [hd] at hfalse
      cases hfalse
    | cons c ds => simp
  rw [hs, ← List.cons_append, continues_digits_append_iff k (List.cons_ne_nil _ ds) hds hr]
  exact fun h => h.2.1 ⟨hlen, rfl⟩

/-- Where nothing is missing nothing has to be added, and elsewhere a digit is enough. -/
theorem continues_nil_or_one (k : Awaited) : Continues k [] ∨ Continues k ['1'] := by
  cases k with
  | operand =>
    exact Or.inr ⟨by decide, ⟨⟨[], ['1']⟩, []⟩, rfl⟩
  | link => exact Or.inl ((continues_nil_iff .link).2 rfl)

end Text

end HiddenEquation
