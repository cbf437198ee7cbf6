import HiddenEquation.Expr.Evaluate
import HiddenEquation.Proofs.Except
import HiddenEquation.Proofs.Expr.Conventional
import HiddenEquation.Proofs.Expr.Lexeme

/-!
# The grammar of equations

An equation as it is written: operands with an operator between any two, where an operand
is a run of signs and then a number.  `Formula.lexemes` writes it down, `Formula.chain`
folds the signs, and `Expr.IsTreeOf` relates a text to the conventional tree of the formula
that its lexemes spell.

* `Chain.readsWhatIsSpelled` : the tokens that are read are those that spell a formula.
* `Expr.readExact_eq_ok_iff` : a text is read exactly if it is legal and spells a formula.
* `Expr.parse_eq_ok_iff_isTreeOf` : the texts that are parsed, and their trees.
-/

namespace HiddenEquation

/-- A sign in front of a number. -/
inductive Sign where
  | plus
  | minus
deriving DecidableEq, Repr

/-- The operator that a sign looks like. -/
def Sign.operator : Sign → Operator
  | plus => .plus
  | minus => .minus

/-- A number as it is written: its signs, then its digits. -/
structure Operand where
  signs : List Sign
  digits : List Char
deriving DecidableEq, Repr

namespace Operand

/-- The symbols of an operand. -/
def lexemes (x : Operand) : List Lexeme :=
  x.signs.map (fun s => .operator s.operator) ++ [.number x.digits]

/-- The number with its signs folded: an odd number of minus signs negates. -/
def signed (x : Operand) : Signed Nat :=
  ⟨decide (x.signs.count .minus % 2 = 1), Decimal.digitsValue x.digits⟩

/-- The operand with one more sign in front. -/
def signBy (s : Sign) (x : Operand) : Operand := ⟨s :: x.signs, x.digits⟩

theorem signed_signBy (s : Sign) (x : Operand) : (x.signBy s).signed =
    ⟨decide (s = .minus) ^^ x.signed.negated, x.signed.value⟩ := by
  cases s with
  | plus => simp [signed, signBy]
  | minus =>
    simp only [signed, signBy, List.count_cons_self, Signed.mk.injEq, and_true]
    by_cases h : x.signs.count .minus % 2 = 1
    · have hsucc : ¬(x.signs.count .minus + 1) % 2 = 1 := by omega
      simp [h, hsucc]
    · have hsucc : (x.signs.count .minus + 1) % 2 = 1 := by omega
      simp [h, hsucc]

end Operand

/-- An equation as it is written: operands with an operator between any two. -/
structure Formula where
  first : Operand
  links : List (Operator × Operand)
deriving DecidableEq, Repr

namespace Formula

/-- The symbols of the operators and operands after the first operand. -/
def linkLexemes (links : List (Operator × Operand)) : List Lexeme :=
  links.flatMap fun l => .operator l.1 :: l.2.lexemes

/-- The symbols of an equation. -/
def lexemes (w : Formula) : List Lexeme := w.first.lexemes ++ linkLexemes w.links

/-- The operators and operands after the first operand, with signs folded. -/
def signedLinks (links : List (Operator × Operand)) : List (Operator × Signed Nat) :=
  links.map fun l => (l.1, l.2.signed)

/-- The chain of an equation. -/
def chain (w : Formula) : Chain Nat := ⟨w.first.signed, signedLinks w.links⟩

theorem lexemes_eq_number_cons {w : Formula} {ds : List Char} {ls : List Lexeme}
    (h : w.lexemes = .number ds :: ls) : w.first = ⟨[], ds⟩ ∧ linkLexemes w.links = ls := by
  obtain ⟨⟨signs, digits⟩, links⟩ := w
  cases signs with
  | nil =>
    simp only [lexemes, Operand.lexemes, List.map_nil, List.nil_append, List.singleton_append,
      List.cons.injEq, Lexeme.number.injEq] at h
    rw [h.1]
    exact ⟨rfl, h.2⟩
  | cons s signs => cases h

/-- A formula that begins with an operator begins with a sign. -/
theorem lexemes_eq_operator_cons {w : Formula} {o : Operator} {ls : List Lexeme}
    (h : w.lexemes = .operator o :: ls) :
    ∃ s x, o = s.operator ∧ w.first = x.signBy s ∧ lexemes ⟨x, w.links⟩ = ls := by
  obtain ⟨⟨signs, digits⟩, links⟩ := w
  cases signs with
  | nil => cases h
  | cons s signs =>
    simp only [lexemes, Operand.lexemes, List.map_cons, List.cons_append, List.cons.injEq,
      Lexeme.operator.injEq] at h
    exact ⟨s, ⟨signs, digits⟩, h.1.symm, rfl, h.2⟩

theorem linkLexemes_eq_cons {links : List (Operator × Operand)} {l : Lexeme} {ls : List Lexeme}
    (h : linkLexemes links = l :: ls) :
    ∃ o x rest, links = (o, x) :: rest ∧ l = .operator o ∧ lexemes ⟨x, rest⟩ = ls := by
  cases links with
  | nil => cases h
  | cons link rest =>
    obtain ⟨o, x⟩ := link
    simp only [linkLexemes, List.flatMap_cons, List.cons_append, List.cons.injEq] at h
    exact ⟨o, x, rest, rfl, h.1.symm, h.2⟩

theorem lexemes_ne_nil (w : Formula) : w.lexemes ≠ [] := by
  obtain ⟨⟨signs, digits⟩, links⟩ := w
  cases signs <;> simp [lexemes, Operand.lexemes]

end Formula

/-! ## The tokens that are read -/

namespace Chain

open Formula

theorem readOperand_number {t : Token} (hk : t.kind = .number) (fault : Option ExprError)
    (negated : Bool) (rest : List Token) : readOperand fault negated (t :: rest) =
      (readLinks fault rest).map fun links => (⟨negated, t.value⟩, links) := by
  rw [readOperand, hk]
  cases readLinks fault rest <;> rfl

theorem readOperand_sign {t : Token} {s : Sign} (hk : t.kind = .operator s.operator)
    (fault : Option ExprError) (negated : Bool) (rest : List Token) :
    readOperand fault negated (t :: rest) =
      readOperand fault (negated ^^ decide (s = .minus)) rest := by
  rw [readOperand, hk]
  cases s <;> simp [Sign.operator]

theorem readOperand_factor {t : Token} {o : Operator} (hk : t.kind = .operator o)
    (ho : ∀ s : Sign, o ≠ s.operator) (fault : Option ExprError) (negated : Bool)
    (rest : List Token) :
    readOperand fault negated (t :: rest) = .error (.unexpected (.operator o) t.start) := by
  rw [readOperand, hk]
  cases o with
  | plus => exact absurd rfl (ho .plus)
  | minus => exact absurd rfl (ho .minus)
  | times => rfl
  | divide => rfl

theorem readLinks_number {t : Token} (hk : t.kind = .number) (fault : Option ExprError)
    (rest : List Token) :
    readLinks fault (t :: rest) = .error (.unexpected .number t.start) := by
  rw [readLinks, hk]

theorem readLinks_operator {t : Token} {o : Operator} (hk : t.kind = .operator o)
    (fault : Option ExprError) (rest : List Token) : readLinks fault (t :: rest) =
      (readOperand fault false rest).map fun p => ((o, p.1) :: p.2) := by
  rw [readLinks, hk]
  cases readOperand fault false rest <;> rfl

/-- A sign is a plus or a minus; no other operator may begin an operand. -/
theorem eq_sign_or_forall_ne (o : Operator) :
    (∃ s : Sign, o = s.operator) ∨ ∀ s : Sign, o ≠ s.operator := by
  cases o with
  | plus => exact Or.inl ⟨.plus, rfl⟩
  | minus => exact Or.inl ⟨.minus, rfl⟩
  | times => exact Or.inr fun s => by cases s <;> decide
  | divide => exact Or.inr fun s => by cases s <;> decide

/-- The tokens that are read as operand and links, and those that are read as links alone,
are those that spell them.  The two readers call each other, so both are said at once. -/
def ReadsWhatIsSpelled (ts : List Token) : Prop :=
  (∀ negated x links, readOperand none negated ts = .ok (x, links) ↔
    ∃ w : Formula, ts.map Token.lexeme = w.lexemes ∧
      x = ⟨negated ^^ w.first.signed.negated, w.first.signed.value⟩ ∧
      links = signedLinks w.links) ∧
  ∀ links, readLinks none ts = .ok links ↔
    ∃ ws, ts.map Token.lexeme = linkLexemes ws ∧ links = signedLinks ws

theorem readsWhatIsSpelled_nil : ReadsWhatIsSpelled [] := by
  refine ⟨fun negated x links => iff_of_false (by simp [readOperand]) ?_, fun links => ?_⟩
  · rintro ⟨w, hw, -⟩
    exact w.lexemes_ne_nil hw.symm
  · constructor
    · intro h
      cases h
      exact ⟨[], rfl, rfl⟩
    · rintro ⟨ws, hws, rfl⟩
      cases ws with
      | nil => rfl
      | cons w ws => cases hws

/-- A number is an operand without signs, and no link begins with one. -/
theorem readsWhatIsSpelled_number {t : Token} {rest : List Token} (hk : t.kind = .number)
    (ih : ReadsWhatIsSpelled rest) : ReadsWhatIsSpelled (t :: rest) := by
  have hl : t.lexeme = .number t.text := by rw [Token.lexeme, hk]
  obtain ⟨-, ihLinks⟩ := ih
  rw [ReadsWhatIsSpelled, List.map_cons, hl]
  refine ⟨fun negated x links => ?_, fun links => ?_⟩
  · rw [readOperand_number hk, Except.map_eq_ok_iff]
    constructor
    · rintro ⟨links', hrest, hx⟩
      cases hx
      obtain ⟨ws, hws, rfl⟩ := (ihLinks _).1 hrest
      refine ⟨⟨⟨[], t.text⟩, ws⟩, ?_, ?_, rfl⟩
      · rw [hws]
        rfl
      · simp [Operand.signed, Token.value]
    · rintro ⟨w, hw, rfl, rfl⟩
      obtain ⟨hfirst, hlinks⟩ := lexemes_eq_number_cons hw.symm
      refine ⟨signedLinks w.links, (ihLinks _).2 ⟨w.links, hlinks.symm, rfl⟩, ?_⟩
      rw [hfirst]
      simp [Operand.signed, Token.value]
  · rw [readLinks_number hk]
    refine iff_of_false (by simp) ?_
    rintro ⟨ws, hws, -⟩
    obtain ⟨o, x, rest', -, ho, -⟩ := linkLexemes_eq_cons hws.symm
    cases ho

/-- An operator is one more sign of the operand that follows if it is a sign, and always the
operator of a link. -/
theorem readsWhatIsSpelled_operator {t : Token} {o : Operator} {rest : List Token}
    (hk : t.kind = .operator o) (ih : ReadsWhatIsSpelled rest) :
    ReadsWhatIsSpelled (t :: rest) := by
  have hl : t.lexeme = .operator o := by rw [Token.lexeme, hk]
  obtain ⟨ihOperand, -⟩ := ih
  rw [ReadsWhatIsSpelled, List.map_cons, hl]
  refine ⟨fun negated x links => ?_, fun links => ?_⟩
  · rcases eq_sign_or_forall_ne o with ⟨s, rfl⟩ | ho
    · rw [readOperand_sign hk, ihOperand]
      constructor
      · rintro ⟨w, hw, rfl, rfl⟩
        refine ⟨⟨w.first.signBy s, w.links⟩, ?_, ?_, rfl⟩
        · rw [hw]
          rfl
        · rw [Operand.signed_signBy, Bool.xor_assoc]
      · rintro ⟨w, hw, rfl, rfl⟩
        obtain ⟨s', x, hs, hfirst, hx⟩ := lexemes_eq_operator_cons hw.symm
        obtain rfl : s = s' := by revert hs; cases s <;> cases s' <;> decide
        refine ⟨⟨x, w.links⟩, hx.symm, ?_, rfl⟩
        rw [hfirst, Operand.signed_signBy, Bool.xor_assoc]
    · rw [readOperand_factor hk ho]
      refine iff_of_false (by simp) ?_
      rintro ⟨w, hw, -⟩
      obtain ⟨s, x, hs, -⟩ := lexemes_eq_operator_cons hw.symm
      exact ho s hs
  · rw [readLinks_operator hk, Except.map_eq_ok_iff]
    constructor
    · rintro ⟨⟨x, links'⟩, hrest, rfl⟩
      obtain ⟨w, hw, rfl, rfl⟩ := (ihOperand _ _ _).1 hrest
      refine ⟨(o, w.first) :: w.links, ?_, ?_⟩
      · rw [hw]
        rfl
      · simp [signedLinks]
    · rintro ⟨ws, hws, rfl⟩
      obtain ⟨p, x, rest', rfl, ho, hx⟩ := linkLexemes_eq_cons hws.symm
      cases ho
      have hrest : readOperand none false rest = .ok (x.signed, signedLinks rest') :=
        (ihOperand _ _ _).2 ⟨⟨x, rest'⟩, hx.symm, by rw [Bool.false_xor], rfl⟩
      exact ⟨_, hrest, rfl⟩

theorem readsWhatIsSpelled (ts : List Token) : ReadsWhatIsSpelled ts := by
  induction ts with
  | nil => exact readsWhatIsSpelled_nil
  | cons t rest ih =>
    cases hk : t.kind with
    | number => exact readsWhatIsSpelled_number hk ih
    | operator o => exact readsWhatIsSpelled_operator hk ih

/-- Where the tokens end at a fault, nothing is read. -/
theorem read_ne_ok_of_fault (e : ExprError) (ts : List Token) :
    (∀ negated p, readOperand (some e) negated ts ≠ .ok p) ∧
      ∀ links, readLinks (some e) ts ≠ .ok links := by
  induction ts with
  | nil =>
    refine ⟨fun negated p h => ?_, fun links h => ?_⟩
    · rw [readOperand] at h
      cases h
    · rw [readLinks] at h
      cases h
  | cons t rest ih =>
    obtain ⟨ihOperand, ihLinks⟩ := ih
    cases hk : t.kind with
    | number =>
      refine ⟨fun negated p h => ?_, fun links h => ?_⟩
      · rw [readOperand_number hk, Except.map_eq_ok_iff] at h
        obtain ⟨links, hlinks, -⟩ := h
        exact ihLinks links hlinks
      · rw [readLinks_number hk] at h
        cases h
    | operator o =>
      refine ⟨fun negated p h => ?_, fun links h => ?_⟩
      · rcases eq_sign_or_forall_ne o with ⟨s, rfl⟩ | ho
        · rw [readOperand_sign hk] at h
          exact ihOperand _ p h
        · rw [readOperand_factor hk ho] at h
          cases h
      · rw [readLinks_operator hk, Except.map_eq_ok_iff] at h
        obtain ⟨p, hp, -⟩ := h
        exact ihOperand false p hp

/-- A scan gives a chain exactly if it has no fault and its tokens spell a formula. -/
theorem ofTokens_eq_ok_iff {s : Token.Scan} {c : Chain Nat} : ofTokens s = .ok c ↔
    s.fault = none ∧ ∃ w : Formula, s.tokens.map Token.lexeme = w.lexemes ∧ c = w.chain := by
  obtain ⟨tokens, fault⟩ := s
  cases fault with
  | some e =>
    refine iff_of_false (fun h => ?_) (fun h => by cases h.1)
    rw [ofTokens, if_neg (by simp)] at h
    cases hread : readOperand (some e) false tokens with
    | ok p => exact (read_ne_ok_of_fault e tokens).1 false p hread
    | error e' =>
      simp only [hread] at h
      cases h
  | none =>
    cases tokens with
    | nil =>
      refine iff_of_false (fun h => by cases h) ?_
      rintro ⟨-, w, hw, -⟩
      exact w.lexemes_ne_nil hw.symm
    | cons t ts =>
      rw [ofTokens, if_neg (by simp)]
      constructor
      · intro h
        cases hread : readOperand none false (t :: ts) with
        | error e =>
          simp only [hread] at h
          cases h
        | ok p =>
          simp only [hread, Except.ok.injEq] at h
          obtain ⟨w, hw, hx, hlinks⟩ := ((readsWhatIsSpelled (t :: ts)).1 false p.1 p.2).1 hread
          refine ⟨rfl, w, hw, ?_⟩
          rw [← h, hx, hlinks, Bool.false_xor]
          rfl
      · rintro ⟨-, w, hw, rfl⟩
        have hread := ((readsWhatIsSpelled (t :: ts)).1 false _ _).2 ⟨w, hw, rfl, rfl⟩
        simp only [hread, Bool.false_xor]
        rfl

end Chain

/-! ## The texts that are parsed -/

namespace Formula

/-- The chain of an equation in doubles, each number the nearest to its digits. -/
def floatChain (w : Formula) : Chain Float := w.chain.map Float.ofNat

end Formula

namespace Expr

/-- An equation: a legal text whose lexemes are operands with an operator between any two. -/
def IsEquation (s : List Char) : Prop := Text.Legal s ∧ ∃ w : Formula, Text.lexemes s = w.lexemes

/-- The tree has the operands and operators of the text, grouped by convention. -/
def IsTreeOf (s : List Char) (e : Expr Float) : Prop :=
  e.Conventional ∧ ∃ w : Formula, Text.lexemes s = w.lexemes ∧ e.Reads w.floatChain

/-- A text of any length is read exactly if it is legal and spells a formula. -/
theorem readExact_eq_ok_iff {s : List Char} {e : Expr Nat} : readExact s = .ok e ↔
    Text.Legal s ∧ ∃ w : Formula, Text.lexemes s = w.lexemes ∧ e = w.chain.tree := by
  rw [readExact, Except.map_eq_ok_iff]
  have hfault : (Token.scan s).fault = none ↔ Text.Legal s := Token.fault_scanFrom_eq_none_iff 0 s
  constructor
  · rintro ⟨c, hc, rfl⟩
    obtain ⟨hnone, w, hw, rfl⟩ := Chain.ofTokens_eq_ok_iff.1 hc
    have hlegal := hfault.1 hnone
    have hlex : (Token.scan s).tokens.map Token.lexeme = Text.lexemes s :=
      Token.lexemes_scanFrom hlegal 0
    exact ⟨hlegal, w, hlex ▸ hw, rfl⟩
  · rintro ⟨hlegal, w, hw, rfl⟩
    have hlex : (Token.scan s).tokens.map Token.lexeme = Text.lexemes s :=
      Token.lexemes_scanFrom hlegal 0
    exact ⟨w.chain, Chain.ofTokens_eq_ok_iff.2 ⟨hfault.2 hlegal, w, hlex.trans hw, rfl⟩, rfl⟩

theorem read_eq_ok_iff {s : List Char} {e : Expr Float} :
    read s = .ok e ↔ Text.Legal s ∧ IsTreeOf s e := by
  rw [read, Except.map_eq_ok_iff]
  constructor
  · rintro ⟨e', he', rfl⟩
    obtain ⟨hlegal, w, hw, rfl⟩ := readExact_eq_ok_iff.1 he'
    rw [← Chain.tree_map]
    obtain ⟨hc, hr⟩ := Chain.conventional_tree w.floatChain
    exact ⟨hlegal, hc, w, hw, hr⟩
  · rintro ⟨hlegal, hc, w, hw, hr⟩
    refine ⟨w.chain.tree, readExact_eq_ok_iff.2 ⟨hlegal, w, hw, rfl⟩, ?_⟩
    rw [← Chain.tree_map, Chain.eq_tree_of_reads hr hc]
    rfl

theorem parse_eq_ok_iff {s : List Char} {e : Expr Float} :
    parse s = .ok e ↔ s.length ≤ maxLength ∧ read s = .ok e := by
  unfold parse
  split
  · rename_i h
    exact iff_of_false (by simp) fun h' => absurd h'.1 (Nat.not_le_of_lt h)
  · rename_i h
    exact ⟨fun h' => ⟨Nat.le_of_not_lt h, h'⟩, fun h' => h'.2⟩

theorem parse_of_readExact {s : List Char} {e : Expr Nat} (hlen : s.length ≤ maxLength)
    (hread : readExact s = .ok e) : parse s = .ok (e.map Float.ofNat) := by
  rw [parse_eq_ok_iff, read, hread]
  exact ⟨hlen, rfl⟩

theorem IsEquation.exists_isTreeOf {s : List Char} (h : IsEquation s) : ∃ e, IsTreeOf s e := by
  obtain ⟨-, w, hw⟩ := h
  obtain ⟨hc, hr⟩ := Chain.conventional_tree w.floatChain
  exact ⟨w.floatChain.tree, hc, w, hw, hr⟩

/-- A legal text has at most one tree, since every one is what is read. -/
theorem IsTreeOf.eq {s : List Char} {e e' : Expr Float} (hs : Text.Legal s) (h : IsTreeOf s e)
    (h' : IsTreeOf s e') : e = e' := by
  have he := read_eq_ok_iff.2 ⟨hs, h⟩
  rw [read_eq_ok_iff.2 ⟨hs, h'⟩] at he
  exact (Except.ok.inj he).symm

/-- **The texts that are parsed, and their trees.**  A text is parsed exactly if it is an
equation of at most `maxLength` characters.  What is parsed is its tree, and an equation of
any length has exactly one. -/
theorem parse_eq_ok_iff_isTreeOf (s : List Char) :
    ((∃ e, parse s = .ok e) ↔ s.length ≤ maxLength ∧ IsEquation s) ∧
      (∀ e, parse s = .ok e ↔ s.length ≤ maxLength ∧ Text.Legal s ∧ IsTreeOf s e) ∧
      (IsEquation s → ∃! e, IsTreeOf s e) := by
  have htree : ∀ e, parse s = .ok e ↔ s.length ≤ maxLength ∧ Text.Legal s ∧ IsTreeOf s e := by
    intro e
    rw [parse_eq_ok_iff, read_eq_ok_iff]
  refine ⟨⟨?_, ?_⟩, htree, ?_⟩
  · rintro ⟨e, he⟩
    obtain ⟨hlen, hs, -, w, hw, -⟩ := (htree e).1 he
    exact ⟨hlen, hs, w, hw⟩
  · rintro ⟨hlen, hs⟩
    obtain ⟨e, he⟩ := hs.exists_isTreeOf
    exact ⟨e, (htree e).2 ⟨hlen, hs.1, he⟩⟩
  · intro hs
    obtain ⟨e, he⟩ := hs.exists_isTreeOf
    exact ⟨e, he, fun e' he' => he'.eq hs.1 he⟩

end Expr

end HiddenEquation
