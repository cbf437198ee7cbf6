import HiddenEquation.Proofs.Expr.Part

/-!
# The shape of a tree that is read

A text is read to a tree that has its numbers as leaves, and no more structure than they need.  A
sign stands directly before a number, products hold no sums, and the right operand of an operator is
never joined by one that binds as loosely.  So a tree is hardly deeper than it has numbers, and the
greatest length of a text bounds them.

* `Expr.leaves`, `Expr.joints`, `Expr.paths` : the measures of a tree.
* `Expr.IsCanonical` : which tree may stand below which.
* `Expr.Reads.isCanonical` : a conventional tree that reads a chain is canonical.
* `Expr.shape_of_parse` : the shape of what is parsed.
-/

namespace HiddenEquation

namespace Expr

variable {α : Type}

/-! ## Measures of a tree -/

/-- The numbers of a tree, from left to right. -/
def leaves : Expr α → List α
  | number v => [v]
  | neg e => e.leaves
  | binary _ l r => l.leaves ++ r.leaves

/-- How many operators join two operands in the tree. -/
def joints : Expr α → Nat
  | number _ => 0
  | neg e => e.joints
  | binary _ l r => l.joints + r.joints + 1

/-- All ways from the root of a tree to one of its leaves, each with the nodes that it meets. -/
def paths : Expr α → List (List (Expr α))
  | number v => [[number v]]
  | neg e => e.paths.map (neg e :: ·)
  | binary o l r => (l.paths ++ r.paths).map (binary o l r :: ·)

theorem length_leaves (e : Expr α) : e.leaves.length = e.joints + 1 := by
  induction e with
  | number v => rfl
  | neg e ih => exact ih
  | binary o l r ihl ihr =>
    rw [leaves, joints, List.length_append, ihl, ihr]
    omega

/-! ## Trees that read a chain -/

variable {e : Expr α} {c : Chain α}

theorem Reads.leaves_eq (h : e.Reads c) : e.leaves = c.operands.map Signed.value := by
  induction h with
  | operand x =>
    obtain ⟨negated, v⟩ := x
    cases negated <;> rfl
  | binary o _ _ ihl ihr => rw [leaves, ihl, ihr, Chain.operands_join, List.map_append]

/-- A path is longest if it meets every operator, then a sign, then a number. -/
theorem Reads.length_path_le (h : e.Reads c) : ∀ path ∈ e.paths, path.length ≤ e.joints + 2 := by
  induction h with
  | operand x =>
    obtain ⟨negated, v⟩ := x
    cases negated <;> simp [Signed.tree, paths, joints]
  | @binary l r _ _ o _ _ ihl ihr =>
    intro path hpath
    obtain ⟨below, hbelow, rfl⟩ := List.mem_map.1 hpath
    rw [List.length_cons, joints]
    rcases List.mem_append.1 hbelow with hbelow | hbelow
    · have hle := ihl below hbelow
      omega
    · have hle := ihr below hbelow
      omega

theorem Reads.eq_number_of_neg {f : Expr α} (h : (neg f).Reads c) : ∃ v, f = number v := by
  generalize he : neg f = e at h
  cases h with
  | operand x =>
    obtain ⟨negated, v⟩ := x
    cases negated with
    | false => cases he
    | true =>
      cases he
      exact ⟨v, rfl⟩
  | binary o _ _ => cases he

theorem Reads.operands_of_binary {o : Operator} {l r : Expr α} (h : (Expr.binary o l r).Reads c) :
    (∃ d, l.Reads d) ∧ ∃ d, r.Reads d := by
  generalize he : Expr.binary o l r = e at h
  cases h with
  | operand x =>
    obtain ⟨negated, v⟩ := x
    cases negated <;> cases he
  | binary o hl hr =>
    cases he
    exact ⟨⟨_, hl⟩, _, hr⟩

/-- Every part of a tree that reads a chain reads one itself. -/
theorem Reads.exists_reads_of_hasPart {p : Expr α} (h : e.Reads c) (hp : e.HasPart p) :
    ∃ d, p.Reads d := by
  induction hp generalizing c with
  | whole e => exact ⟨c, h⟩
  | operand _ ih =>
    obtain ⟨v, rfl⟩ := h.eq_number_of_neg
    exact ih (Reads.operand ⟨false, v⟩)
  | left o r _ ih =>
    obtain ⟨⟨d, hl⟩, -⟩ := h.operands_of_binary
    exact ih hl
  | right o l _ ih =>
    obtain ⟨-, d, hr⟩ := h.operands_of_binary
    exact ih hr

theorem Conventional.hasPart {p : Expr α} (hc : e.Conventional) (hp : e.HasPart p) :
    p.Conventional := by
  induction hp with
  | whole e => exact hc
  | operand _ ih => exact ih hc
  | left o r _ ih => exact ih hc.2.2.1
  | right o l _ ih => exact ih hc.2.2.2

/-! ## Canonical trees -/

/-- Which tree may stand below which. -/
structure IsCanonical (e : Expr α) : Prop where
  /-- A sign stands directly above a number. -/
  negated : ∀ f, e.HasPart (.neg f) → ∃ v, f = .number v
  /-- The right operand of a product or quotient is a number or a negated number. -/
  factor : ∀ o l r, e.HasPart (.binary o l r) → o.isAdditive = false →
    ∃ v, r = .number v ∨ r = .neg (.number v)
  /-- The right operand of a sum or difference is no sum or difference. -/
  summand : ∀ o l o' l' r', e.HasPart (.binary o l (.binary o' l' r')) → o.isAdditive = true →
    o'.isAdditive = false
  /-- No sum or difference is below a product or quotient. -/
  product : ∀ o l r o' l' r', e.HasPart (.binary o l r) → o.isAdditive = false →
    (binary o l r).HasPart (.binary o' l' r') → o'.isAdditive = false

/-- A tree that binds tighter than sums has no sum as a part. -/
theorem Reads.isAdditive_eq_false (h : e.Reads c) (hc : e.Conventional) (hp : 1 < e.precedence)
    {o : Operator} {l r : Expr α} (hpart : e.HasPart (.binary o l r)) : o.isAdditive = false := by
  induction h with
  | operand x => exact absurd hpart (not_hasPart_signed_binary x o l r)
  | binary o' _ _ ihl ihr =>
    obtain ⟨hle, hlt, hcl, hcr⟩ := hc
    have ho : 1 < o'.precedence := hp
    rcases hasPart_binary_iff.1 hpart with hwhole | hleft | hright
    · cases hwhole
      exact Operator.isAdditive_of_one_lt_precedence ho
    · exact ihl hcl (Nat.lt_of_lt_of_le ho hle) hleft
    · exact ihr hcr (Nat.lt_trans ho hlt) hright

/-- **A conventional tree that reads a chain is canonical**: what a part may be is said by what it
reads and by how tightly it has to bind. -/
theorem Reads.isCanonical (h : e.Reads c) (hc : e.Conventional) : e.IsCanonical where
  negated f hf := by
    obtain ⟨d, hd⟩ := h.exists_reads_of_hasPart hf
    exact hd.eq_number_of_neg
  factor o l r hpart ho := by
    obtain ⟨d, hd⟩ := h.exists_reads_of_hasPart hpart
    obtain ⟨-, d', hr⟩ := hd.operands_of_binary
    have hlt := (hc.hasPart hpart).2.1
    rw [Operator.precedence_of_not_isAdditive ho] at hlt
    obtain ⟨⟨negated, v⟩, rfl⟩ := hr.eq_signed hlt
    cases negated with
    | false => exact ⟨v, Or.inl rfl⟩
    | true => exact ⟨v, Or.inr rfl⟩
  summand o l o' l' r' hpart ho := by
    have hlt := (hc.hasPart hpart).2.1
    rw [Operator.precedence_of_isAdditive ho] at hlt
    exact Operator.isAdditive_of_one_lt_precedence hlt
  product o l r o' l' r' hpart ho hbelow := by
    obtain ⟨d, hd⟩ := h.exists_reads_of_hasPart hpart
    refine hd.isAdditive_eq_false (hc.hasPart hpart) ?_ hbelow
    rw [precedence, Operator.precedence_of_not_isAdditive ho]
    exact Nat.one_lt_two

end Expr

/-! ## The numbers of a text -/

/-- The digits of a symbol that is a number. -/
def Lexeme.digits? : Lexeme → Option (List Char)
  | .number ds => some ds
  | .operator _ => none

namespace Token

/-- The tokens of a text that are numbers. -/
def numbers (s : List Char) : List Token := (scan s).tokens.filter fun t => t.kind = .number

theorem filterMap_digits?_lexeme (ts : List Token) : (ts.map lexeme).filterMap Lexeme.digits? =
    (ts.filter fun t => t.kind = .number).map text := by
  induction ts with
  | nil => rfl
  | cons t ts ih =>
    cases hk : t.kind with
    | number => simp [lexeme, Lexeme.digits?, hk, ih]
    | operator o =>
      have hl : t.lexeme = .operator o := by rw [lexeme, hk]
      rw [List.map_cons, hl, List.filterMap_cons_none rfl, ih,
        List.filter_cons_of_neg (by simp [hk])]

/-- The numbers of a legal text have the digits of its lexemes. -/
theorem text_numbers {s : List Char} (h : Text.Legal s) :
    (numbers s).map text = (Text.lexemes s).filterMap Lexeme.digits? := by
  rw [numbers, ← filterMap_digits?_lexeme]
  exact congrArg (List.filterMap Lexeme.digits?) (lexemes_scanFrom h 0)

end Token

namespace Text

/-- Every symbol takes at least one character. -/
theorem length_lexemes_le (s : List Char) : (lexemes s).length ≤ s.length := by
  induction s using lexical_induction with
  | nil => exact Nat.le_refl 0
  | blank c s hb ih =>
    rw [lexemes_blank hb]
    exact Nat.le_succ_of_le ih
  | operator o s ih =>
    rw [lexemes_operator]
    exact Nat.succ_le_succ ih
  | number ds s hne hds hs ih =>
    have hpos : 0 < ds.length := List.length_pos_iff.2 hne
    rw [lexemes_digits_append hne hds hs, List.length_cons, List.length_append]
    omega
  | other c s hb hd ho ih =>
    rw [lexemes, runs_cons hd, List.filterMap_cons_none (by simp [lexeme?, ho, hd])]
    exact Nat.le_succ_of_le ih

end Text

namespace Formula

theorem filterMap_digits?_operand (x : Operand) :
    x.lexemes.filterMap Lexeme.digits? = [x.digits] := by
  simp [Operand.lexemes, Lexeme.digits?]

theorem filterMap_digits?_linkLexemes (links : List (Operator × Operand)) :
    (linkLexemes links).filterMap Lexeme.digits? = links.map fun l => l.2.digits := by
  induction links with
  | nil => rfl
  | cons l links ih =>
    rw [linkLexemes, List.flatMap_cons, ← linkLexemes, List.cons_append,
      List.filterMap_cons_none rfl, List.filterMap_append, filterMap_digits?_operand, ih]
    rfl

/-- The numbers of a formula are those of its operands. -/
theorem filterMap_digits?_lexemes (w : Formula) : w.lexemes.filterMap Lexeme.digits? =
    (w.first :: w.links.map Prod.snd).map Operand.digits := by
  rw [lexemes, List.filterMap_append, filterMap_digits?_operand, filterMap_digits?_linkLexemes]
  simp

theorem map_value_operands (w : Formula) : w.floatChain.operands.map Signed.value =
    ((w.first :: w.links.map Prod.snd).map Operand.digits).map Decimal.digitsFloat := by
  rw [operands_floatChain, List.map_map, List.map_map]
  rfl

/-- A formula has an operator and a number to every link, and one number more. -/
theorem two_mul_length_links_lt (w : Formula) : 2 * w.links.length < w.lexemes.length := by
  obtain ⟨x, links⟩ := w
  have hlinks : 2 * links.length ≤ (linkLexemes links).length := by
    induction links with
    | nil => exact Nat.le_refl 0
    | cons l links ih =>
      rw [linkLexemes, List.flatMap_cons, ← linkLexemes]
      simp only [List.length_cons, List.length_append, Operand.lexemes, List.length_map,
        List.length_nil]
      omega
  simp only [lexemes, Operand.lexemes, List.length_append, List.length_map, List.length_singleton]
  omega

end Formula

namespace Expr

/-- **The shape of what is parsed.**  The leaves of the tree are the numbers of the text, in order
and with their values; it has one operator fewer than numbers; it is canonical; and no path from its
root to a leaf meets more nodes than there are numbers and one more, which are at most 513. -/
theorem shape_of_parse {s : List Char} {e : Expr Float} (h : parse s = .ok e) :
    e.leaves = (Token.numbers s).map (fun t => Float.ofNat t.value) ∧
      e.joints + 1 = (Token.numbers s).length ∧ e.IsCanonical ∧
      (∀ path ∈ e.paths, path.length ≤ (Token.numbers s).length + 1) ∧
      (Token.numbers s).length + 1 ≤ 513 := by
  obtain ⟨hlen, hread⟩ := parse_eq_ok_iff.1 h
  obtain ⟨hlegal, hc, w, hw, hreads⟩ := read_eq_ok_iff.1 hread
  have htext : (Token.numbers s).map Token.text =
      (w.first :: w.links.map Prod.snd).map Operand.digits := by
    rw [Token.text_numbers hlegal, hw, w.filterMap_digits?_lexemes]
  have hleaves : e.leaves = (Token.numbers s).map fun t => Float.ofNat t.value := by
    rw [hreads.leaves_eq, w.map_value_operands, ← htext, List.map_map]
    rfl
  have hjoints : e.joints + 1 = (Token.numbers s).length := by
    rw [← length_leaves, hleaves, List.length_map]
  have hcount : (Token.numbers s).length = w.links.length + 1 := by
    have hlengths := congrArg List.length htext
    simpa using hlengths
  refine ⟨hleaves, hjoints, hreads.isCanonical hc, fun path hpath => ?_, ?_⟩
  · rw [← hjoints]
    exact hreads.length_path_le path hpath
  · have hlexemes := w.two_mul_length_links_lt
    have hshort := Text.length_lexemes_le s
    rw [← hw] at hlexemes
    have hmax : s.length ≤ 1024 := hlen
    omega

/-- Signs that are folded, and a product inside a difference inside a sum.  The path to the negated
number is as long as any to one of four numbers can be. -/
theorem folded_factor_shape :
    ∃ e : Expr Float, e = (binary .plus (binary .minus (number 6) (binary .times
        (neg (number 2)) (number 3))) (number 4)).map Float.ofNat ∧
      parse "6-+-2*3+4".toList = .ok e ∧ (Token.numbers "6-+-2*3+4".toList).length = 4 ∧
      e.IsCanonical ∧ ∀ path ∈ e.paths, path.length ≤ 5 := by
  have hparse : parse "6-+-2*3+4".toList = .ok ((binary .plus (binary .minus (number 6)
      (binary .times (neg (number 2)) (number 3))) (number 4)).map Float.ofNat) :=
    parse_of_readExact (by decide) (readExact_eq_ok_iff.2 ⟨by decide, ⟨⟨[], ['6']⟩,
      [(.minus, ⟨[.plus, .minus], ['2']⟩), (.times, ⟨[], ['3']⟩), (.plus, ⟨[], ['4']⟩)]⟩,
      by decide, rfl⟩)
  obtain ⟨-, hjoints, hcanonical, hpaths, -⟩ := shape_of_parse hparse
  have hfour : (Token.numbers "6-+-2*3+4".toList).length = 4 := hjoints.symm
  rw [hfour] at hpaths
  exact ⟨_, rfl, hparse, hfour, hcanonical, hpaths⟩

end Expr

end HiddenEquation
