import HiddenEquation.Proofs.Decimal.Plain
import HiddenEquation.Proofs.Expr.Part

/-!
# Printed equations are unambiguous

A tree is printed with parentheses only where they are needed, and with these few no two trees are
printed alike, not even trees that no equation stands for: negated sums, repeated signs, grouped
right operands.

The proof reads the texts from the right.  Where a text ends the operand that was printed last ends,
and `Opens` says what may stand in front of an operand, so that it is clear where it begins.

* `Determined` : an operand can be told, and where it begins.
* `determined` : every operand is determined if numbers are.
* `eq_of_plainText` : two trees of finite numbers without sign that are printed alike are the same.
-/

namespace HiddenEquation

theorem Operator.symbol_inj {o o' : Operator} (h : o.symbol = o'.symbol) : o = o' := by
  rw [← Option.some.injEq, ← ofChar?_symbol o, h, ofChar?_symbol]

namespace Expr

variable {α : Type}

/-! ## Operands as they are printed -/

/-- An operand where everything that binds less than `k` needs parentheses. -/
def operandText (write : α → String) (k : Nat) (e : Expr α) : List Char :=
  (grouped (decide (e.precedence < k)) (e.text write)).toList

section

variable {write : α → String} {e l r : Expr α} {o : Operator} {k k' : Nat}

theorem operandText_of_le (h : k ≤ e.precedence) :
    e.operandText write k = (e.text write).toList := by
  rw [operandText, decide_eq_false (Nat.not_lt.2 h)]
  rfl

theorem operandText_of_lt (h : e.precedence < k) :
    e.operandText write k = '(' :: (e.text write).toList ++ [')'] := by
  rw [operandText, decide_eq_true h, grouped, if_pos rfl, String.toList_append,
    String.toList_append]
  rfl

theorem operandText_congr (h : e.precedence < k ↔ e.precedence < k') :
    e.operandText write k = e.operandText write k' := by
  rw [operandText, operandText, decide_eq_decide.2 h]

theorem operandText_number (v : α) (hk : k ≤ 4) :
    (number v).operandText write k = (write v).toList :=
  operandText_of_le hk

theorem operandText_neg (e : Expr α) (hk : k ≤ 3) :
    (neg e).operandText write k = '-' :: e.operandText write 3 := by
  rw [operandText_of_le hk, text, String.toList_append]
  rfl

/-- The left operand may bind as loosely as the operator, the right operand binds tighter. -/
theorem operandText_binary (hk : k ≤ o.precedence) : (binary o l r).operandText write k =
    l.operandText write o.precedence ++ [' ', o.symbol, ' '] ++
      r.operandText write (o.precedence + 1) := by
  have hright : decide (r.precedence ≤ o.precedence) = decide (r.precedence < o.precedence + 1) :=
    decide_eq_decide.2 Nat.lt_succ_iff.symm
  rw [operandText_of_le hk, text, hright]
  simp [operandText]

end

/-! ## What stands in front of an operand -/

/-- In front of an operand stands nothing, a parenthesis, or an operator that binds less. -/
def Opens (k : Nat) (p : List Char) : Prop :=
  p = [] ∨ (∃ q, p = q ++ ['(']) ∨
    ∃ (q : List Char) (o : Operator), o.precedence < k ∧ p = q ++ [' ', o.symbol, ' ']

section

variable {p q : List Char} {k k' : Nat}

theorem opens_nil : Opens k [] := Or.inl rfl

theorem opens_group (q : List Char) : Opens k (q ++ ['(']) := Or.inr (Or.inl ⟨q, rfl⟩)

theorem opens_operator (q : List Char) {o : Operator} (h : o.precedence < k) :
    Opens k (q ++ [' ', o.symbol, ' ']) := Or.inr (Or.inr ⟨q, o, h, rfl⟩)

theorem Opens.mono (h : Opens k p) (hk : k ≤ k') : Opens k' p := by
  rcases h with rfl | ⟨q, rfl⟩ | ⟨q, o, ho, rfl⟩
  · exact opens_nil
  · exact opens_group q
  · exact opens_operator q (Nat.lt_of_lt_of_le ho hk)

/-- An operator that binds as tightly as the operand does not open it. -/
theorem Opens.ne_operator (h : Opens k p) {o : Operator} (ho : k ≤ o.precedence) :
    p ≠ q ++ [' ', o.symbol, ' '] := by
  rcases h with rfl | ⟨q', rfl⟩ | ⟨q', o', ho', rfl⟩
  · exact (List.append_ne_nil_of_right_ne_nil q (List.cons_ne_nil _ _)).symm
  · intro h
    have hlast := congrArg List.getLast? h
    simp at hlast
  · intro h
    have htail := List.append_inj_right' h rfl
    simp only [List.cons.injEq, true_and, and_true] at htail
    obtain rfl := Operator.symbol_inj htail
    omega

/-- What opens an operand ends in a parenthesis or a blank. -/
theorem Opens.getLast? (h : Opens k p) : ∀ c ∈ p.getLast?, c = '(' ∨ c = ' ' := by
  rcases h with rfl | ⟨q, rfl⟩ | ⟨q, o, -, rfl⟩
  · simp
  · simp
  · simp

end

/-- A run of characters of one kind at the end of a text, where what stands before it ends in
another kind, is as long as it looks. -/
theorem append_run_inj {a b s t : List Char} {kind : Char → Prop} (ha : ∀ c ∈ a.getLast?, ¬kind c)
    (hb : ∀ c ∈ b.getLast?, ¬kind c) (hs : ∀ c ∈ s, kind c) (ht : ∀ c ∈ t, kind c)
    (h : a ++ s = b ++ t) : a = b ∧ s = t := by
  have hempty {x y z : List Char} (hx : ∀ c ∈ (x ++ y).getLast?, ¬kind c)
      (hy : ∀ c ∈ y ++ z, kind c) : y = [] := by
    by_contra hne
    have hlast := List.getLast_mem hne
    refine hx (y.getLast hne) ?_ (hy _ (List.mem_append_left z hlast))
    rw [List.getLast?_append_of_ne_nil x hne, List.getLast?_eq_some_getLast hne]
    exact rfl
  rcases List.append_eq_append_iff.1 h with ⟨u, rfl, rfl⟩ | ⟨u, rfl, rfl⟩
  · obtain rfl := hempty hb hs
    exact ⟨(List.append_nil a).symm, rfl⟩
  · obtain rfl := hempty ha ht
    exact ⟨List.append_nil b, rfl⟩

/-! ## Operands that can be told -/

/-- The two operands are not taken for each other, and it is clear where they begin. -/
def Determined (write : α → String) (k : Nat) (e e' : Expr α) : Prop :=
  ∀ p p', Opens k p → Opens k p' →
    p ++ e.operandText write k = p' ++ e'.operandText write k → p = p' ∧ e = e'

/-- The same with minus signs in front of the operands. -/
def DeterminedSigned (write : α → String) (e e' : Expr α) : Prop :=
  ∀ i j p p', Opens 3 p → Opens 3 p' →
    p ++ List.replicate i '-' ++ e.operandText write 3 =
      p' ++ List.replicate j '-' ++ e'.operandText write 3 → p = p' ∧ neg^[i] e = neg^[j] e'

/-- The numbers of some kind are written differently, with digits and points. -/
structure WritesNumbers (write : α → String) (kind : α → Prop) : Prop where
  ne_nil : ∀ v, kind v → (write v).toList ≠ []
  isDigit_or_point : ∀ v, kind v → ∀ c ∈ (write v).toList, c.isDigit = true ∨ c = '.'
  inj : ∀ v w, kind v → kind w → write v = write w → v = w

section

variable {write : α → String} {kind : α → Prop} {e e' l r l' r' : Expr α} {o o' : Operator}
  {k : Nat} {v w : α}

theorem Determined.symm (h : Determined write k e e') : Determined write k e' e := by
  intro p p' hp hp' heq
  obtain ⟨rfl, rfl⟩ := h p' p hp' hp heq.symm
  exact ⟨rfl, rfl⟩

theorem DeterminedSigned.symm (h : DeterminedSigned write e e') : DeterminedSigned write e' e := by
  intro i j p p' hp hp' heq
  obtain ⟨rfl, hij⟩ := h j i p' p hp' hp heq.symm
  exact ⟨rfl, hij.symm⟩

/-- Two operators of one precedence: their right operands are told apart first. -/
theorem determined_binary (hprec : o.precedence = o'.precedence) (hk : k ≤ o.precedence)
    (hr : Determined write (o.precedence + 1) r r') (hl : Determined write o.precedence l l') :
    Determined write k (binary o l r) (binary o' l' r') := by
  intro p p' hp hp' heq
  rw [operandText_binary hk, operandText_binary (hprec ▸ hk), ← hprec, ← List.append_assoc,
    ← List.append_assoc, ← List.append_assoc, ← List.append_assoc] at heq
  obtain ⟨hfront, rfl⟩ := hr _ _ (opens_operator _ (Nat.lt_succ_self _))
    (opens_operator _ (hprec ▸ Nat.lt_succ_self _)) heq
  obtain ⟨hleft, hsymbol⟩ := List.append_inj' hfront rfl
  simp only [List.cons.injEq, true_and, and_true] at hsymbol
  obtain rfl := Operator.symbol_inj hsymbol
  obtain ⟨rfl, rfl⟩ := hl _ _ (hp.mono hk) (hp'.mono hk) hleft
  exact ⟨rfl, rfl⟩

/-- An operator is not taken for an operand that is printed no differently to the right of the
operator: that operand would be the right operand, and begin later. -/
theorem determined_binary_of_ne (hk : k ≤ o.precedence)
    (hother : e'.precedence < k ∨ o.precedence < e'.precedence)
    (hr : Determined write (o.precedence + 1) r e') : Determined write k (binary o l r) e' := by
  intro p p' hp hp' heq
  have hsame : e'.operandText write k = e'.operandText write (o.precedence + 1) :=
    operandText_congr (by omega)
  rw [operandText_binary hk, hsame, ← List.append_assoc, ← List.append_assoc] at heq
  obtain ⟨hfront, -⟩ := hr _ _ (opens_operator _ (Nat.lt_succ_self _))
    (hp'.mono (Nat.le_succ_of_le hk)) heq
  exact absurd hfront.symm (hp'.ne_operator hk)

/-- A sign in front of the operand is one sign more. -/
theorem DeterminedSigned.neg (h : DeterminedSigned write e e') :
    DeterminedSigned write (.neg e) e' := by
  intro i j p p' hp hp' heq
  refine h (i + 1) j p p' hp hp' ?_
  rw [← heq, operandText_neg e (Nat.le_refl 3), List.replicate_succ']
  simp

theorem Opens.not_minus {p : List Char} (h : Opens 3 p) : ∀ c ∈ p.getLast?, ¬c = '-' := by
  intro c hc
  rcases h.getLast? c hc with rfl | rfl <;> decide

/-- Signs may be counted in front of what opens an operand. -/
theorem Opens.eq_of_signs {p p' : List Char} {i j : Nat} (hp : Opens 3 p) (hp' : Opens 3 p')
    (h : p ++ List.replicate i '-' = p' ++ List.replicate j '-') : p = p' ∧ i = j := by
  obtain ⟨hfront, hsigns⟩ := append_run_inj hp.not_minus hp'.not_minus
    (fun c => List.eq_of_mem_replicate) (fun c => List.eq_of_mem_replicate) h
  exact ⟨hfront, by simpa using congrArg List.length hsigns⟩

theorem Opens.not_digit {p : List Char} (h : Opens 3 p) (i : Nat) :
    ∀ c ∈ (p ++ List.replicate i '-').getLast?, ¬(c.isDigit = true ∨ c = '.') := by
  intro c hc
  cases i with
  | zero =>
    rw [List.replicate_zero, List.append_nil] at hc
    rcases h.getLast? c hc with rfl | rfl <;> decide
  | succ i =>
    rw [List.replicate_succ', ← List.append_assoc, List.getLast?_concat, Option.mem_some] at hc
    rw [← hc]
    decide

theorem determinedSigned_number (hw : WritesNumbers write kind) (hv : kind v) (hv' : kind w) :
    DeterminedSigned write (number v) (number w) := by
  intro i j p p' hp hp' heq
  rw [operandText_number v (by decide), operandText_number w (by decide)] at heq
  obtain ⟨hfront, htext⟩ := append_run_inj (hp.not_digit i) (hp'.not_digit j)
    (hw.isDigit_or_point v hv) (hw.isDigit_or_point w hv') heq
  obtain ⟨rfl, rfl⟩ := hp.eq_of_signs hp' hfront
  rw [hw.inj v w hv hv' (String.toList_inj.1 htext)]
  exact ⟨rfl, rfl⟩

/-- A number does not end in a parenthesis. -/
theorem determinedSigned_number_of_lt (hw : WritesNumbers write kind) (hv : kind v)
    (he : e.precedence < 3) : DeterminedSigned write (number v) e := by
  intro i j p p' _ _ heq
  rw [operandText_number v (by decide), operandText_of_lt he] at heq
  have hlast := congrArg List.getLast? heq
  rw [List.getLast?_append_of_ne_nil _ (hw.ne_nil v hv), ← List.append_assoc,
    List.getLast?_concat] at hlast
  exact absurd (hw.isDigit_or_point v hv _ (List.mem_of_getLast? hlast)) (by decide)

/-- Two operands in parentheses: their texts open anew. -/
theorem determinedSigned_of_lt (he : e.precedence < 3) (he' : e'.precedence < 3)
    (h : Determined write 1 e e') : DeterminedSigned write e e' := by
  intro i j p p' hp hp' heq
  have hfront (x : Expr α) (q : List Char) (n : Nat) (hx : x.precedence < 3) :
      q ++ List.replicate n '-' ++ x.operandText write 3 =
        q ++ List.replicate n '-' ++ ['('] ++ x.operandText write 1 ++ [')'] := by
    rw [operandText_of_lt hx, operandText_of_le x.precedence_pos]
    simp
  rw [hfront e p i he, hfront e' p' j he'] at heq
  obtain ⟨hopen, rfl⟩ := h _ _ (opens_group _) (opens_group _) (List.append_inj_left' heq rfl)
  obtain ⟨rfl, rfl⟩ := hp.eq_of_signs hp' (List.append_inj_left' hopen rfl)
  exact ⟨rfl, rfl⟩

/-- An operand that is no operator without parentheses is printed like one behind a sign. -/
theorem determined_of_signed (h : DeterminedSigned write e e')
    (he : e.precedence < k ∨ 3 ≤ e.precedence) (he' : e'.precedence < k ∨ 3 ≤ e'.precedence)
    (hk : k ≤ 3) : Determined write k e e' := by
  intro p p' hp hp' heq
  refine h 0 0 p p' (hp.mono hk) (hp'.mono hk) ?_
  rw [List.replicate_zero, List.append_nil, List.append_nil,
    ← operandText_congr (by omega : e.precedence < k ↔ e.precedence < 3),
    ← operandText_congr (by omega : e'.precedence < k ↔ e'.precedence < 3)]
  exact heq

/-! ## All operands can be told -/

/-- Operands of size less than `n` together are determined, whatever stands around them. -/
def DeterminedBelow (write : α → String) (kind : α → Prop) (n : Nat) : Prop :=
  ∀ e e' : Expr α, sizeOf e + sizeOf e' < n → (∀ v, e.HasPart (.number v) → kind v) →
    (∀ v, e'.HasPart (.number v) → kind v) →
      (∀ k ≤ 3, Determined write k e e') ∧ DeterminedSigned write e e'

/-- What binds less than a sign is an operator with its operands. -/
theorem exists_binary_of_precedence_lt (h : e.precedence < 3) : ∃ o l r, e = binary o l r := by
  cases e with
  | number v => simp [precedence] at h
  | neg a => simp [precedence] at h
  | binary o l r => exact ⟨o, l, r, rfl⟩

section

variable {n : Nat} (ih : DeterminedBelow write kind n)
  (he : ∀ v, e.HasPart (.number v) → kind v) (he' : ∀ v, e'.HasPart (.number v) → kind v)
  (hsize : sizeOf e + sizeOf e' ≤ n)

include ih he he' hsize

/-- An operator without parentheses is determined if smaller operands are. -/
theorem determined_of_precedence_lt (hk : k ≤ e.precedence) (hp : e.precedence < 3) :
    Determined write k e e' := by
  obtain ⟨o, l, r, rfl⟩ := exists_binary_of_precedence_lt hp
  have ho := o.precedence_mem
  by_cases hother : e'.precedence < k ∨ o.precedence < e'.precedence
  · refine determined_binary_of_ne hk hother ((ih r e' ?_ ?_ he').1 _ (by omega))
    · simp only [binary.sizeOf_spec] at hsize
      omega
    · exact fun v hv => he v (.right o l hv)
  · -- the other operand is an operator too, which binds no tighter
    obtain ⟨o', l', r', rfl⟩ := exists_binary_of_precedence_lt (by omega : e'.precedence < 3)
    simp only [binary.sizeOf_spec] at hsize
    simp only [precedence] at hother
    by_cases hprec : o.precedence = o'.precedence
    · refine determined_binary hprec hk ((ih r r' (by omega) ?_ ?_).1 _ (by omega))
        ((ih l l' (by omega) ?_ ?_).1 _ (by omega))
      · exact fun v hv => he v (.right o l hv)
      · exact fun v hv => he' v (.right o' l' hv)
      · exact fun v hv => he v (.left o r hv)
      · exact fun v hv => he' v (.left o' r' hv)
    · refine Determined.symm (determined_binary_of_ne (by omega) (Or.inr ?_)
        ((ih r' (binary o l r) ?_ ?_ he).1 _ (by omega)))
      · simp only [precedence]
        omega
      · simp only [binary.sizeOf_spec]
        omega
      · exact fun v hv => he' v (.right o' l' hv)

/-- Behind signs stands a number or an operator in parentheses. -/
theorem determinedSigned_of_below (hw : WritesNumbers write kind) :
    DeterminedSigned write e e' := by
  cases e with
  | neg a =>
    simp only [neg.sizeOf_spec] at hsize
    exact (ih a e' (by omega) (fun v hv => he v (.operand hv)) he').2.neg
  | number v =>
    cases e' with
    | neg a =>
      simp only [neg.sizeOf_spec] at hsize
      exact (ih a _ (by omega) (fun w hw => he' w (.operand hw)) he).2.neg.symm
    | number w => exact determinedSigned_number hw (he v (.whole _)) (he' w (.whole _))
    | binary o l r =>
      exact determinedSigned_number_of_lt hw (he v (.whole _))
        (Nat.lt_succ_of_le o.precedence_mem.2)
  | binary o l r =>
    have hlt : (binary o l r).precedence < 3 := Nat.lt_succ_of_le o.precedence_mem.2
    cases e' with
    | neg a =>
      simp only [neg.sizeOf_spec] at hsize
      exact (ih a _ (by omega) (fun w hw => he' w (.operand hw)) he).2.neg.symm
    | number w => exact (determinedSigned_number_of_lt hw (he' w (.whole _)) hlt).symm
    | binary o' l' r' =>
      exact determinedSigned_of_lt hlt (Nat.lt_succ_of_le o'.precedence_mem.2)
        (determined_of_precedence_lt ih he he' hsize o.precedence_mem.1 hlt)

end

/-- **Every operand is determined** if numbers are. -/
theorem determined (hw : WritesNumbers write kind) (n : Nat) : DeterminedBelow write kind n := by
  induction n with
  | zero => exact fun e e' hn => absurd hn (Nat.not_lt_zero _)
  | succ n ih =>
    intro e e' hn he he'
    have hsize : sizeOf e + sizeOf e' ≤ n := Nat.lt_succ_iff.1 hn
    have hsigned := determinedSigned_of_below ih he he' hsize hw
    refine ⟨fun k hk => ?_, hsigned⟩
    by_cases hp : k ≤ e.precedence ∧ e.precedence < 3
    · exact determined_of_precedence_lt ih he he' hsize hp.1 hp.2
    · by_cases hp' : k ≤ e'.precedence ∧ e'.precedence < 3
      · exact (determined_of_precedence_lt ih he' he (by omega) hp'.1 hp'.2).symm
      · exact determined_of_signed hsigned (by omega) (by omega) hk

/-- Trees that are printed alike are the same. -/
theorem eq_of_text (hw : WritesNumbers write kind) (he : ∀ v, e.HasPart (.number v) → kind v)
    (he' : ∀ v, e'.HasPart (.number v) → kind v) (h : e.text write = e'.text write) : e = e' := by
  have hone := (determined hw _ e e' (Nat.lt_succ_self _) he he').1 1 (by decide)
  refine (hone [] [] opens_nil opens_nil ?_).2
  rw [operandText_of_le e.precedence_pos, operandText_of_le e'.precedence_pos, h]

end

/-! ## Doubles -/

/-- Finite doubles with a clear sign bit are written differently, with digits and points. -/
theorem writesNumbers_plain : WritesNumbers Decimal.plain
    fun v => v.isFinite = true ∧ v.toBits.toNat < 2 ^ 63 where
  ne_nil v hv := by
    obtain ⟨d, hd⟩ := Decimal.exists_ofFloat_of_lt hv.1 hv.2
    exact Decimal.plain_ne_nil hd
  isDigit_or_point v hv c hc := by
    obtain ⟨d, hd⟩ := Decimal.exists_ofFloat_of_lt hv.1 hv.2
    exact Decimal.isDigit_or_point_of_mem_plain hd hc
  inj v w hv hw h := by
    obtain ⟨d, hd⟩ := Decimal.exists_ofFloat_of_lt hv.1 hv.2
    obtain ⟨d', hd'⟩ := Decimal.exists_ofFloat_of_lt hw.1 hw.2
    exact Decimal.plain_inj hd hd' h

/-- **A printed equation stands for one tree.**  Two trees that are printed alike are the same, also
if no equation stands for them, provided that their numbers are finite and have no sign. -/
theorem eq_of_plainText {e e' : Expr Float}
    (he : ∀ v, e.HasPart (.number v) → v.isFinite = true ∧ v.toBits.toNat < 2 ^ 63)
    (he' : ∀ v, e'.HasPart (.number v) → v.isFinite = true ∧ v.toBits.toNat < 2 ^ 63)
    (h : e.plainText = e'.plainText) : e = e' :=
  eq_of_text writesNumbers_plain he he' h

/-- A grouped right operand with two signs and a fraction in it, which is computed on one side and
read on the other.  Without the parentheses the text is that of another tree. -/
theorem grouped_operand_told_apart :
    binary .minus (number 2) (binary .minus (neg (neg (number (1 / 4)))) (number 3)) =
        binary .minus (number 2) (binary .minus (neg (neg (number 0.25))) (number 3)) ∧
      (binary .minus (number 2) (binary .minus (neg (neg (number 0.25))) (number 3))).plainText ≠
        (binary .minus (binary .minus (number 2) (neg (neg (number 0.25))))
          (number 3)).plainText := by
  have hgrouped (x : Float) (hx : x.isFinite = true ∧ x.toBits.toNat < 2 ^ 63) (v : Float)
      (hv : (binary .minus (number 2) (binary .minus (neg (neg (number x))) (number 3))).HasPart
        (.number v)) : v.isFinite = true ∧ v.toBits.toNat < 2 ^ 63 := by
    simp only [hasPart_binary_iff, hasPart_neg_iff, hasPart_number_iff, reduceCtorEq, false_or,
      number.injEq] at hv
    rcases hv with rfl | rfl | rfl
    · decide
    · exact hx
    · decide
  have hplain (v : Float) (hv : (binary .minus (binary .minus (number 2)
      (neg (neg (number 0.25)))) (number 3)).HasPart (.number v)) :
      v.isFinite = true ∧ v.toBits.toNat < 2 ^ 63 := by
    simp only [hasPart_binary_iff, hasPart_neg_iff, hasPart_number_iff, reduceCtorEq, false_or,
      number.injEq] at hv
    rcases hv with (rfl | rfl) | rfl <;> decide
  constructor
  · exact eq_of_plainText (hgrouped (1 / 4) (by decide)) (hgrouped 0.25 (by decide)) (by decide)
  · intro h
    have heq := eq_of_plainText (hgrouped 0.25 (by decide)) hplain h
    simp at heq

end Expr

end HiddenEquation
