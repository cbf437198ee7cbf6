import HiddenEquation.Proofs.Expr.Unambiguous

/-!
# Printing and reading again

What was read from a text is printed without parentheses, as operands with a blank on either side of
every operator.  So a minus in front of an operand never stands beside another, and the printed text
is an equation again: it spells the chain that was read before.

* `Spells` : a text spells a chain.
* `Reads.spells` : a conventional tree is printed as the chain that it reads.
* `read_plainText` : what is read, printed and read again is the same.
-/

namespace HiddenEquation

namespace Formula

/-- Two equations with an operator between them. -/
def join (w : Formula) (o : Operator) (x : Formula) : Formula :=
  ⟨w.first, w.links ++ (o, x.first) :: x.links⟩

theorem lexemes_join (w : Formula) (o : Operator) (x : Formula) :
    (w.join o x).lexemes = w.lexemes ++ .operator o :: x.lexemes := by
  simp [join, lexemes, linkLexemes]

theorem chain_join (w : Formula) (o : Operator) (x : Formula) :
    (w.join o x).chain = w.chain.join o x.chain := by
  simp [join, chain, signedLinks, Chain.join]

end Formula

namespace Expr

variable {α : Type} {f : Nat → α} {write : α → String}

/-! ## Texts that spell a chain -/

/-- The text is an equation, and its chain is the given one when its numbers are taken by `f`. -/
def Spells (f : Nat → α) (s : List Char) (c : Chain α) : Prop :=
  Text.Legal s ∧ ∃ w : Formula, Text.lexemes s = w.lexemes ∧ w.chain.map f = c

theorem spells_number {ds : List Char} (h : Text.IsNumber ds) :
    Spells f ds ⟨⟨false, f (Decimal.digitsValue ds)⟩, []⟩ :=
  ⟨h.legal, ⟨⟨[], ds⟩, []⟩, h.lexemes_eq, rfl⟩

theorem spells_minus_number {ds : List Char} (h : Text.IsNumber ds) :
    Spells f ('-' :: ds) ⟨⟨true, f (Decimal.digitsValue ds)⟩, []⟩ :=
  ⟨h.legal_minus, ⟨⟨[.minus], ds⟩, []⟩, h.lexemes_minus, rfl⟩

/-- With blanks around it an operator may stand between any two equations. -/
theorem Spells.join {s t : List Char} {c d : Chain α} (hs : Spells f s c) (o : Operator)
    (ht : Spells f t d) : Spells f (s ++ [' ', o.symbol, ' '] ++ t) (c.join o d) := by
  obtain ⟨hlegal, w, hw, rfl⟩ := hs
  obtain ⟨hlegal', x, hx, rfl⟩ := ht
  have hblank : Text.isBlank ' ' = true := by decide
  have htext : s ++ [' ', o.symbol, ' '] ++ t = s ++ ' ' :: o.symbol :: ' ' :: t := by simp
  rw [htext]
  refine ⟨hlegal.append_blank hblank ?_, w.join o x, ?_, ?_⟩
  · rw [Text.legal_operator_iff, Text.legal_blank_iff hblank]
    refine ⟨?_, hlegal'⟩
    rintro ⟨-, hhead⟩
    rw [List.head?_cons, Option.some.injEq] at hhead
    exact absurd (hhead ▸ Text.isBlank_symbol o) (by decide)
  · rw [Text.lexemes_append_blank hblank, Text.lexemes_operator, Text.lexemes_blank hblank, hw, hx,
      Formula.lexemes_join]
  · rw [Formula.chain_join, Chain.map_join]

/-- No parenthesis stands in an equation. -/
theorem Spells.not_mem {s : List Char} {c : Chain α} (h : Spells f s c) : '(' ∉ s ∧ ')' ∉ s :=
  ⟨fun hmem => absurd (h.1.alphabet _ hmem) (by decide),
    fun hmem => absurd (h.1.alphabet _ hmem) (by decide)⟩

/-! ## Conventional trees as they are printed -/

/-- A conventional tree is printed without parentheses. -/
theorem toList_text_binary {o : Operator} {l r : Expr α} (h : (binary o l r).Conventional) :
    ((binary o l r).text write).toList =
      (l.text write).toList ++ [' ', o.symbol, ' '] ++ (r.text write).toList := by
  obtain ⟨hl, hr, -, -⟩ := h
  rw [← operandText_of_le (k := o.precedence) (Nat.le_refl _), operandText_binary (Nat.le_refl _),
    operandText_of_le hl, operandText_of_le hr]

theorem toList_text_neg_number (v : α) :
    ((neg (number v)).text write).toList = '-' :: (write v).toList := by
  change ("-" ++ write v).toList = _
  rw [String.toList_append]
  rfl

/-- **A conventional tree is printed as the chain that it reads**, if its numbers are printed as
an equation may hold them. -/
theorem Reads.spells {e : Expr α} {c : Chain α} (h : e.Reads c) (hc : e.Conventional)
    (hwrite : ∀ v, e.HasPart (.number v) → Text.IsNumber (write v).toList ∧
      f (Decimal.digitsValue (write v).toList) = v) : Spells f (e.text write).toList c := by
  induction h with
  | operand x =>
    obtain ⟨negated, v⟩ := x
    cases negated with
    | false =>
      obtain ⟨hnumber, hvalue⟩ := hwrite v (.whole _)
      have hspells := spells_number (f := f) hnumber
      rwa [hvalue] at hspells
    | true =>
      obtain ⟨hnumber, hvalue⟩ := hwrite v (.operand (.whole _))
      have hspells := spells_minus_number (f := f) hnumber
      rwa [hvalue, ← toList_text_neg_number] at hspells
  | @binary l r c d o _ _ ihl ihr =>
    rw [toList_text_binary hc]
    obtain ⟨-, -, hcl, hcr⟩ := hc
    exact (ihl hcl fun v hv => hwrite v (.left o r hv)).join o
      (ihr hcr fun v hv => hwrite v (.right o l hv))

/-- **What is read, printed and read again is the same.**  If the numbers of an equation are finite
then it is printed without parentheses, and the printed text, however long, is read as the equation
itself. -/
theorem read_plainText {s : List Char} {e : Expr Float} (h : parse s = .ok e)
    (hfinite : ∀ ds, .number ds ∈ Text.lexemes s → (Decimal.digitsFloat ds).isFinite = true) :
    '(' ∉ e.plainText.toList ∧ ')' ∉ e.plainText.toList ∧ read e.plainText.toList = .ok e := by
  obtain ⟨-, hc, w, hw, hreads⟩ := read_eq_ok_iff.1 (parse_eq_ok_iff.1 h).2
  have hwrite : ∀ v, e.HasPart (.number v) → Text.IsNumber (Decimal.plain v).toList ∧
      Float.ofNat (Decimal.digitsValue (Decimal.plain v).toList) = v := by
    intro v hv
    obtain ⟨ds, hds, rfl⟩ := exists_digits_of_parse h hv
    exact Decimal.digitsFloat_plain (hfinite ds hds)
  have hspells := hreads.spells hc hwrite
  obtain ⟨hopen, hclose⟩ := hspells.not_mem
  obtain ⟨hlegal, x, hx, hchain⟩ := hspells
  have hreads' : e.Reads x.floatChain := by
    rw [Formula.floatChain, hchain]
    exact hreads
  exact ⟨hopen, hclose, read_eq_ok_iff.2 ⟨hlegal, hc, x, hx, hreads'⟩⟩

/-- Signs that stand apart, and a number with more digits than a double holds, which is printed as
the double next to it. -/
theorem minus_before_operand_reprinted :
    parse "5- -9007199254740993*+2".toList = .ok ((binary .minus (number 5) (binary .times
        (neg (number 9007199254740993)) (number 2))).map Float.ofNat) ∧
      ((binary .minus (number 5) (binary .times (neg (number 9007199254740993))
        (number 2))).map Float.ofNat).plainText = "5 - -9007199254740992 * 2" ∧
      read "5 - -9007199254740992 * 2".toList = .ok ((binary .minus (number 5) (binary .times
        (neg (number 9007199254740993)) (number 2))).map Float.ofNat) := by
  have hlexemes : Text.lexemes "5- -9007199254740993*+2".toList = [.number ['5'],
      .operator .minus, .operator .minus, .number "9007199254740993".toList, .operator .times,
      .operator .plus, .number ['2']] := by decide
  have hparse : parse "5- -9007199254740993*+2".toList = .ok ((binary .minus (number 5)
      (binary .times (neg (number 9007199254740993)) (number 2))).map Float.ofNat) :=
    parse_of_readExact (by decide) (readExact_eq_ok_iff.2 ⟨by decide, ⟨⟨[], ['5']⟩,
      [(.minus, ⟨[.minus], "9007199254740993".toList⟩), (.times, ⟨[.plus], ['2']⟩)]⟩, hlexemes,
      rfl⟩)
  have hplain : ((binary .minus (number 5) (binary .times (neg (number 9007199254740993))
      (number 2))).map Float.ofNat).plainText = "5 - -9007199254740992 * 2" := by decide
  refine ⟨hparse, hplain, ?_⟩
  rw [← hplain]
  refine (read_plainText hparse fun ds hds => ?_).2.2
  rw [hlexemes] at hds
  have hcases : ds = ['5'] ∨ ds = "9007199254740993".toList ∨ ds = ['2'] := by simpa using hds
  rcases hcases with rfl | rfl | rfl <;> decide

end Expr

end HiddenEquation
