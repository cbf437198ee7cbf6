import HiddenEquation.Proofs.Expr.Lexeme

/-!
# Reading on after a fault

A scanner may be asked for the next token again after it has reported a fault.  Every answer uses up
characters but one: in front of two equal signs side by side the scanner reports them and stays
where it is, so it reports them forever.  A text without such a pair is read to its end, whatever
else is wrong with it.

* `Scanner.Exhausts` : what a scanner gives until there is nothing left.
* `Scanner.next_cases` : an answer moves the scanner on, or it stalls.
* `Scanner.exhausts_iff` : the texts that come to an end, and how soon.
-/

namespace HiddenEquation

namespace Text

/-- Nowhere in the text do two `+` or two `-` stand side by side. -/
def SignsApart (s : List Char) : Prop :=
  s.IsChain fun c d => ¬(c = '+' ∧ d = '+') ∧ ¬(c = '-' ∧ d = '-')

/-- Two equal signs stand at the front of the text. -/
def StartsWithPair (s : List Char) : Prop :=
  ∃ o : Operator, o.isAdditive = true ∧ [o.symbol, o.symbol] <+: s

theorem startsWithPair_operator {o : Operator} {s : List Char} (ho : o.isAdditive = true)
    (hs : s.head? = some o.symbol) : StartsWithPair (o.symbol :: s) := by
  obtain ⟨rest, rfl⟩ := List.head?_eq_some_iff.1 hs
  exact ⟨o, ho, rest, rfl⟩

theorem signsApart_nil : SignsApart [] := List.isChain_nil

theorem signsApart_cons_iff {c : Char} (hplus : c ≠ '+') (hminus : c ≠ '-') (s : List Char) :
    SignsApart (c :: s) ↔ SignsApart s := by
  rw [SignsApart, List.isChain_cons]
  simp [hplus, hminus, SignsApart]

theorem signsApart_operator_iff (o : Operator) (s : List Char) : SignsApart (o.symbol :: s) ↔
    ¬(o.isAdditive = true ∧ s.head? = some o.symbol) ∧ SignsApart s := by
  rw [SignsApart, List.isChain_cons, signs_iff_head?]
  rfl

theorem signsApart_blank_iff {c : Char} (h : isBlank c = true) (s : List Char) :
    SignsApart (c :: s) ↔ SignsApart s :=
  signsApart_cons_iff (by rintro rfl; exact absurd h (by decide))
    (by rintro rfl; exact absurd h (by decide)) s

theorem signsApart_digits_append_iff {ds : List Char} (hds : ∀ c ∈ ds, c.isDigit = true)
    (s : List Char) : SignsApart (ds ++ s) ↔ SignsApart s := by
  induction ds with
  | nil => rfl
  | cons d ds ih =>
    obtain ⟨hd, hds⟩ := List.forall_mem_cons.1 hds
    rw [List.cons_append, signsApart_cons_iff, ih hds]
    · rintro rfl
      exact absurd hd (by decide)
    · rintro rfl
      exact absurd hd (by decide)

theorem signsApart_other_iff {c : Char} (ho : Operator.ofChar? c = none) (s : List Char) :
    SignsApart (c :: s) ↔ SignsApart s :=
  signsApart_cons_iff (by rintro rfl; exact absurd ho (by decide))
    (by rintro rfl; exact absurd ho (by decide)) s

end Text

namespace Scanner

open Text

/-- Asked again and again, whatever it reports, the scanner gives these answers and then none. -/
inductive Exhausts : Scanner → List (Except ExprError Token) → Prop
  | done {s : Scanner} (h : s.next = none) : Exhausts s []
  | item {s s' : Scanner} {x : Except ExprError Token} {xs : List (Except ExprError Token)}
      (h : s.next = some (x, s')) (hs : Exhausts s' xs) : Exhausts s (x :: xs)

/-- The scanner reports two equal signs and stays in front of them. -/
def Stalls (s : Scanner) : Prop := s.next = some (.error (.increment s.position), s)

variable {s s' : Scanner} {x : Except ExprError Token} {xs : List (Except ExprError Token)}

/-! ## Answers one by one -/

theorem exhausts_congr (h : s.next = s'.next) : s.Exhausts xs ↔ s'.Exhausts xs := by
  constructor
  · intro hs
    cases hs with
    | done hnext => exact .done (h ▸ hnext)
    | item hnext hs => exact .item (h ▸ hnext) hs
  · intro hs
    cases hs with
    | done hnext => exact .done (h ▸ hnext)
    | item hnext hs => exact .item (h ▸ hnext) hs

theorem exhausts_of_next_none (h : s.next = none) : s.Exhausts xs ↔ xs = [] := by
  constructor
  · intro hs
    cases hs with
    | done => rfl
    | item hnext => rw [h] at hnext; cases hnext
  · rintro rfl
    exact .done h

theorem exhausts_of_next (h : s.next = some (x, s')) :
    s.Exhausts xs ↔ ∃ ys, xs = x :: ys ∧ s'.Exhausts ys := by
  constructor
  · intro hs
    cases hs with
    | done hnext => rw [h] at hnext; cases hnext
    | item hnext hs =>
      rw [h] at hnext
      cases hnext
      exact ⟨_, rfl, hs⟩
  · rintro ⟨ys, rfl, hs⟩
    exact .item h hs

/-- A scanner that stalls gives its answer forever. -/
theorem Stalls.not_exhausts (h : s.Stalls) : ¬s.Exhausts xs := by
  induction xs with
  | nil =>
    intro hs
    obtain ⟨ys, hnil, -⟩ := (exhausts_of_next h).1 hs
    cases hnil
  | cons x xs ih =>
    intro hs
    obtain ⟨ys, hcons, hys⟩ := (exhausts_of_next h).1 hs
    cases hcons
    exact ih hys

/-! ## What an answer does to the scanner -/

theorem advance_cons (p : Nat) (c : Char) (s : List Char) (n : Nat) :
    advance ⟨p, c :: s⟩ (n + 1) = advance ⟨p + 1, s⟩ n := by
  simp only [advance, List.drop_succ_cons, mk.injEq, and_true]
  omega

theorem next_operator_cases (o : Operator) (p : Nat) (s : List Char) :
    o.isAdditive = true ∧ s.head? = some o.symbol ∧ Stalls ⟨p, o.symbol :: s⟩ ∨
      ¬(o.isAdditive = true ∧ s.head? = some o.symbol) ∧
        next ⟨p, o.symbol :: s⟩ = some (.ok ⟨.operator o, p, [o.symbol]⟩, ⟨p + 1, s⟩) := by
  have hnext := next_operator o p s
  rw [readOperator_cons] at hnext
  split at hnext
  · rename_i h
    exact Or.inl ⟨h.1, h.2, hnext⟩
  · rename_i h
    exact Or.inr ⟨h, hnext⟩

/-- A run of digits is passed over, whether it is a number or a fault. -/
theorem exists_next_digits_append {ds s : List Char} (hne : ds ≠ [])
    (hds : ∀ c ∈ ds, c.isDigit = true) (hs : ∀ c ∈ s.head?, c.isDigit = false) (p : Nat) :
    ∃ x, next ⟨p, ds ++ s⟩ = some (x, ⟨p + ds.length, s⟩) ∧ ∀ i, x ≠ .error (.increment i) := by
  refine ⟨_, (next_digits hne hds p).trans (congrArg some (readNumber_append hds hs p)), ?_⟩
  intro i
  split <;> simp

/-- **What an answer does to the scanner.**  There is none at the end of the text.  An answer that
is no pair of signs moves the scanner on, and not past the end; a pair of signs makes it stall. -/
theorem next_cases (s : List Char) (p : Nat) : next ⟨p, s⟩ = none ∨
    (∃ x n, next ⟨p, s⟩ = some (x, advance ⟨p, s⟩ n) ∧ 0 < n ∧ n ≤ s.length ∧
      ∀ i, x ≠ .error (.increment i)) ∨
    ∃ n, next ⟨p, s⟩ = some (.error (.increment (p + n)), advance ⟨p, s⟩ n) ∧
      StartsWithPair (s.drop n) ∧ (advance ⟨p, s⟩ n).Stalls := by
  induction s using lexical_induction generalizing p with
  | nil => exact Or.inl (next_nil p)
  | blank c s hb ih =>
    rw [next_blank hb]
    rcases ih (p + 1) with hnone | ⟨x, n, hnext, -, hle, hx⟩ | ⟨n, hnext, hpair, hstalls⟩
    · exact Or.inl hnone
    · refine Or.inr (Or.inl ⟨x, n + 1, ?_, n.succ_pos, Nat.succ_le_succ hle, hx⟩)
      rw [advance_cons, hnext]
    · refine Or.inr (Or.inr ⟨n + 1, ?_, hpair, ?_⟩)
      · rw [advance_cons, hnext, Nat.add_assoc, Nat.add_comm 1 n]
      · rw [advance_cons]
        exact hstalls
  | operator o s _ =>
    rcases next_operator_cases o p s with ⟨hsign, hhead, hstalls⟩ | ⟨-, hnext⟩
    · exact Or.inr (Or.inr ⟨0, hstalls, startsWithPair_operator hsign hhead, hstalls⟩)
    · exact Or.inr (Or.inl ⟨_, 1, hnext, Nat.one_pos, Nat.succ_le_succ (Nat.zero_le _), by simp⟩)
  | number ds s hne hds hs _ =>
    obtain ⟨x, hnext, hx⟩ := exists_next_digits_append hne hds hs p
    refine Or.inr (Or.inl ⟨x, ds.length, ?_, List.length_pos_iff.2 hne, by simp, hx⟩)
    rw [hnext, advance, List.drop_left]
  | other c s hb hd ho _ =>
    exact Or.inr (Or.inl ⟨_, 1, next_other hb hd ho p s, Nat.one_pos,
      Nat.succ_le_succ (Nat.zero_le _), by simp⟩)

/-! ## All answers -/

/-- One answer more than from where it leads to. -/
theorem exhausts_iff_of_next {n : Nat} {P : Prop} (h : s.next = some (x, s'))
    (hs' : ((∃ xs, s'.Exhausts xs) ↔ P) ∧ ∀ xs, s'.Exhausts xs → xs.length ≤ n) :
    ((∃ xs, s.Exhausts xs) ↔ P) ∧ ∀ xs, s.Exhausts xs → xs.length ≤ n + 1 := by
  obtain ⟨hiff, hlen⟩ := hs'
  simp only [exhausts_of_next h]
  refine ⟨Iff.trans ⟨?_, ?_⟩ hiff, ?_⟩
  · rintro ⟨_, ys, rfl, hys⟩
    exact ⟨ys, hys⟩
  · rintro ⟨ys, hys⟩
    exact ⟨x :: ys, ys, rfl, hys⟩
  · rintro _ ⟨ys, rfl, hys⟩
    exact Nat.succ_le_succ (hlen ys hys)

/-- A text comes to an end, and then with no more answers than it has characters, exactly if no two
equal signs stand side by side in it.  The induction is on the text in the order of reading. -/
theorem exhausts_iff (s : List Char) (p : Nat) :
    ((∃ xs, Exhausts ⟨p, s⟩ xs) ↔ SignsApart s) ∧
      ∀ xs, Exhausts ⟨p, s⟩ xs → xs.length ≤ s.length := by
  induction s using lexical_induction generalizing p with
  | nil =>
    simp only [exhausts_of_next_none (next_nil p)]
    exact ⟨iff_of_true ⟨[], rfl⟩ signsApart_nil, fun xs hxs => hxs ▸ Nat.le_refl 0⟩
  | blank c s hb ih =>
    obtain ⟨hiff, hlen⟩ := ih (p + 1)
    simp only [exhausts_congr (next_blank hb p s)]
    exact ⟨hiff.trans (signsApart_blank_iff hb s).symm,
      fun xs hxs => Nat.le_succ_of_le (hlen xs hxs)⟩
  | operator o s ih =>
    rw [signsApart_operator_iff]
    rcases next_operator_cases o p s with ⟨hsign, hhead, hstalls⟩ | ⟨hapart, hnext⟩
    · refine ⟨iff_of_false ?_ fun h => h.1 ⟨hsign, hhead⟩, fun xs hxs => ?_⟩
      · rintro ⟨xs, hxs⟩
        exact hstalls.not_exhausts hxs
      · exact absurd hxs hstalls.not_exhausts
    · rw [and_iff_right hapart]
      exact exhausts_iff_of_next hnext (ih (p + 1))
  | number ds s hne hds hs ih =>
    obtain ⟨x, hnext, -⟩ := exists_next_digits_append hne hds hs p
    obtain ⟨hiff, hlen⟩ := exhausts_iff_of_next hnext (ih (p + ds.length))
    have hpos : 0 < ds.length := List.length_pos_iff.2 hne
    refine ⟨hiff.trans (signsApart_digits_append_iff hds s).symm, fun xs hxs => ?_⟩
    have hle := hlen xs hxs
    rw [List.length_append]
    omega
  | other c s hb hd ho ih =>
    rw [signsApart_other_iff ho]
    exact exhausts_iff_of_next (next_other hb hd ho p s) (ih (p + 1))

/-- **Reading on ends unless two equal signs stand side by side.**  Every answer of a scanner moves
it on by at least one character, never past the end, except that in front of a pair of equal signs
it reports the pair and stays.  So the answers come to an end, and are at most as many as there are
characters, exactly if there is no such pair; all other faults are passed over. -/
theorem next_until_exhausted (s : Scanner) :
    (s.next = none ∨
      (∃ x n, s.next = some (x, s.advance n) ∧ 0 < n ∧ n ≤ s.rest.length ∧
        ∀ i, x ≠ .error (.increment i)) ∨
      ∃ n, s.next = some (.error (.increment (s.position + n)), s.advance n) ∧
        StartsWithPair (s.rest.drop n) ∧ (s.advance n).Stalls) ∧
    ((∃ xs, s.Exhausts xs) ↔ SignsApart s.rest) ∧
    ∀ xs, s.Exhausts xs → xs.length ≤ s.rest.length :=
  ⟨next_cases s.rest s.position, exhausts_iff s.rest s.position⟩

/-- A decrement is not passed over: after the number in front of it the scanner reports it, stays
where it is, and never comes to the end of the text. -/
theorem decrement_not_passed :
    (ofText "5--3".toList).next = some (.ok ⟨.number, 0, ['5']⟩, ⟨1, "--3".toList⟩) ∧
      next ⟨1, "--3".toList⟩ = some (.error (.increment 1), ⟨1, "--3".toList⟩) ∧
      ¬∃ xs, (ofText "5--3".toList).Exhausts xs := by
  refine ⟨by rfl, by rfl, fun h => ?_⟩
  have hapart := (exhausts_iff "5--3".toList 0).1.1 h
  exact absurd hapart (by unfold SignsApart; decide)

end Scanner

end HiddenEquation
