import HiddenEquation.Proofs.Expr.Continuation

/-!
# Where a text stops being the beginning of an equation

A fault that is reported with a position is found at the first place from which on the text cannot
be mended: what stands before the position can be completed to an equation, and what stands up to
one or two characters further cannot.  A text that is too short for an equation lacks no more than
one digit.

* `Text.Breaks`, `Text.Lacks` : a text that cannot be continued, and one that has to be.
* `Expr.breaks_or_lacks` : a fault reported from any state on shows where that state breaks.
* `Expr.parse_error_pinpoints` : where the faults of a text stand.
-/

namespace HiddenEquation

namespace Text

/-! ## Where a text breaks off -/

/-- The first `i` characters can be completed, and with `n` characters more they cannot. -/
structure Breaks (k : Awaited) (s : List Char) (i n : Nat) : Prop where
  lt : i < s.length
  completed : Continues k (s.take i) ∨ Continues k (s.take i ++ ['1'])
  stuck : ∀ t, ¬Continues k (s.take (i + n) ++ t)

/-- Nothing is wrong with the text but that one more operand is awaited at its end. -/
structure Lacks (k : Awaited) (s : List Char) : Prop where
  incomplete : ¬Continues k s
  completed : Continues k (s ++ ['1'])

variable {k : Awaited} {s : List Char} {i n : Nat}

/-- A text that breaks where it begins. -/
theorem breaks_zero {c : Char} (h : ∀ t, ¬Continues k ((c :: s).take n ++ t)) :
    Breaks k (c :: s) 0 n :=
  ⟨Nat.succ_pos _, continues_nil_or_one k, by rwa [Nat.zero_add]⟩

theorem Breaks.blank {c : Char} (hb : isBlank c = true) (h : Breaks k s i n) :
    Breaks k (c :: s) (i + 1) n := by
  refine ⟨Nat.succ_lt_succ h.lt, ?_, fun t => ?_⟩
  · rw [List.take_succ_cons, List.cons_append, continues_blank_iff k hb, continues_blank_iff k hb]
    exact h.completed
  · rw [Nat.add_right_comm, List.take_succ_cons, List.cons_append, continues_blank_iff k hb]
    exact h.stuck t

theorem Lacks.blank {c : Char} (hb : isBlank c = true) (h : Lacks k s) : Lacks k (c :: s) := by
  refine ⟨?_, ?_⟩
  · rw [continues_blank_iff k hb]
    exact h.incomplete
  · rw [List.cons_append, continues_blank_iff k hb]
    exact h.completed

section

variable {o : Operator}

/-- What is taken of a text, and the digit after it, bring no sign to the front. -/
theorem head?_take_append_one_ne (h : s.head? ≠ some o.symbol) (i : Nat) :
    (s.take i).head? ≠ some o.symbol ∧ (s.take i ++ ['1']).head? ≠ some o.symbol := by
  have hone : some '1' ≠ some o.symbol := by cases o <;> decide
  cases i with
  | zero => exact ⟨by simp, hone⟩
  | succ i =>
    cases s with
    | nil => exact ⟨by simp, hone⟩
    | cons c s => exact ⟨h, h⟩

theorem Breaks.operator (hk : k = .operand → o.isAdditive = true)
    (hsign : ¬(o.isAdditive = true ∧ s.head? = some o.symbol)) (h : Breaks .operand s i n) :
    Breaks k (o.symbol :: s) (i + 1) n := by
  refine ⟨Nat.succ_lt_succ h.lt, ?_, fun t => ?_⟩
  · have hhead : (o.isAdditive = true → (s.take i).head? ≠ some o.symbol) ∧
        (o.isAdditive = true → (s.take i ++ ['1']).head? ≠ some o.symbol) :=
      ⟨fun ho => (head?_take_append_one_ne (fun hs => hsign ⟨ho, hs⟩) i).1,
        fun ho => (head?_take_append_one_ne (fun hs => hsign ⟨ho, hs⟩) i).2⟩
    rw [List.take_succ_cons, List.cons_append, continues_operator_iff, continues_operator_iff]
    rcases h.completed with hc | hc
    · exact Or.inl ⟨hk, fun h' => hhead.1 h'.1 h'.2, hc⟩
    · exact Or.inr ⟨hk, fun h' => hhead.2 h'.1 h'.2, hc⟩
  · rw [Nat.add_right_comm, List.take_succ_cons, List.cons_append, continues_operator_iff]
    exact fun h' => h.stuck t h'.2.2

theorem Lacks.operator (hk : k = .operand → o.isAdditive = true)
    (hsign : ¬(o.isAdditive = true ∧ s.head? = some o.symbol)) (h : Lacks .operand s) :
    Lacks k (o.symbol :: s) := by
  refine ⟨fun h' => h.incomplete ((continues_operator_iff k o s).1 h').2.2, ?_⟩
  rw [List.cons_append, continues_operator_iff]
  refine ⟨hk, fun h' => ?_, h.completed⟩
  have hhead := (head?_take_append_one_ne (fun hs => hsign ⟨h'.1, hs⟩) s.length).2
  rw [List.take_length] at hhead
  exact hhead h'.2

end

section

variable {ds : List Char}

theorem Breaks.digits (hne : ds ≠ []) (hds : ∀ c ∈ ds, c.isDigit = true)
    (hs : ∀ c ∈ s.head?, c.isDigit = false) (hzero : ¬(1 < ds.length ∧ ds.head? = some '0'))
    (h : Breaks .link s i n) : Breaks .operand (ds ++ s) (ds.length + i) n := by
  -- what follows the run must not begin with a digit, or it would belong to the run
  have hhead (j : Nat) (t : List Char) (hj : s.take j ≠ []) :
      ∀ c ∈ (s.take j ++ t).head?, c.isDigit = false := by
    cases s with
    | nil => exact absurd List.take_nil hj
    | cons c s =>
      cases j with
      | zero => exact absurd rfl hj
      | succ j => exact hs
  have hlink : Continues .link [] := (continues_nil_iff .link).2 rfl
  refine ⟨by rw [List.length_append]; exact Nat.add_lt_add_left h.lt _, ?_, fun t => ?_⟩
  · rw [List.take_length_add_append, List.append_assoc]
    by_cases hi : s.take i = []
    · rw [hi, List.append_nil]
      refine Or.inl ?_
      rw [← List.append_nil ds, continues_digits_append_iff .operand hne hds (by simp)]
      exact ⟨rfl, hzero, hlink⟩
    · have hnil := hhead i [] hi
      rw [List.append_nil] at hnil
      rw [continues_digits_append_iff .operand hne hds hnil,
        continues_digits_append_iff .operand hne hds (hhead i ['1'] hi)]
      rcases h.completed with hc | hc
      · exact Or.inl ⟨rfl, hzero, hc⟩
      · exact Or.inr ⟨rfl, hzero, hc⟩
  · have hin : s.take (i + n) ≠ [] := by
      intro hnil
      have hstuck := h.stuck []
      rw [hnil] at hstuck
      exact hstuck hlink
    rw [Nat.add_assoc, List.take_length_add_append, List.append_assoc,
      continues_digits_append_iff .operand hne hds (hhead (i + n) t hin)]
    exact fun h' => h.stuck t h'.2.2

theorem Lacks.digits (hne : ds ≠ []) (hds : ∀ c ∈ ds, c.isDigit = true)
    (hs : ∀ c ∈ s.head?, c.isDigit = false) (hzero : ¬(1 < ds.length ∧ ds.head? = some '0'))
    (h : Lacks .link s) : Lacks .operand (ds ++ s) := by
  cases s with
  | nil => exact absurd h.completed (not_continues_link_digit (by decide) [])
  | cons c s =>
    refine ⟨?_, ?_⟩
    · rw [continues_digits_append_iff .operand hne hds hs]
      exact fun h' => h.incomplete h'.2.2
    · rw [List.append_assoc, continues_digits_append_iff .operand hne hds (by exact hs)]
      exact ⟨rfl, hzero, h.completed⟩

end

end Text

/-! ## Faults that are reported -/

namespace Chain

variable {e : ExprError} {k : Awaited} {t : Token} {ts : List Token} {fault : Option ExprError}

/-- Signs that were read before do not matter for a fault. -/
theorem readOperand_eq_error_iff (fault : Option ExprError) (negated : Bool) (ts : List Token) :
    readOperand fault negated ts = .error e ↔ readOperand fault false ts = .error e := by
  induction ts generalizing negated with
  | nil => simp only [readOperand]
  | cons t ts ih =>
    cases hk : t.kind with
    | number => simp only [readOperand_number hk, Except.map_eq_error_iff]
    | operator o =>
      rcases eq_sign_or_forall_ne o with ⟨s, rfl⟩ | ho
      · rw [readOperand_sign hk, readOperand_sign hk, ih, ih (false ^^ _)]
      · rw [readOperand_factor hk ho, readOperand_factor hk ho]

/-- Reading what is left of the tokens ends with the fault. -/
def Reports (e : ExprError) : Awaited → Token.Scan → Prop
  | .operand, s => readOperand s.fault false s.tokens = .error e
  | .link, s => readLinks s.fault s.tokens = .error e

/-- At the end of the tokens the fault of the text is reported, or else that an operand is
missing. -/
theorem reports_nil_iff : Reports e k ⟨[], fault⟩ ↔
    fault = some e ∨ fault = none ∧ k = .operand ∧ e = .endOfInput := by
  cases k <;> cases fault <;> simp [Reports, readOperand, readLinks, eq_comm]

theorem reports_number_iff (hk : t.kind = .number) : Reports e k ⟨t :: ts, fault⟩ ↔
    k = .operand ∧ Reports e .link ⟨ts, fault⟩ ∨ k = .link ∧ e = .unexpected .number t.start := by
  cases k with
  | operand => simp [Reports, readOperand_number hk, Except.map_eq_error_iff]
  | link => simp [Reports, readLinks_number hk, eq_comm]

theorem reports_operator_iff {o : Operator} (hk : t.kind = .operator o) :
    Reports e k ⟨t :: ts, fault⟩ ↔
      (k = .operand → o.isAdditive = true) ∧ Reports e .operand ⟨ts, fault⟩ ∨
      k = .operand ∧ o.isAdditive = false ∧ e = .unexpected (.operator o) t.start := by
  cases k with
  | operand =>
    cases ho : o.isAdditive with
    | true =>
      obtain ⟨s, rfl⟩ := o.exists_sign_iff.2 ho
      simp [Reports, readOperand_sign hk, readOperand_eq_error_iff fault (decide _)]
    | false =>
      have hne (s : Sign) : o ≠ s.operator := by
        rintro rfl
        have hsign := s.operator.exists_sign_iff.1 ⟨s, rfl⟩
        rw [ho] at hsign
        cases hsign
      simp [Reports, readOperand_factor hk hne, eq_comm]
  | link => simp [Reports, readLinks_operator hk, Except.map_eq_error_iff]

/-- Only a text without tokens is called empty; all else is reported where the tokens are read. -/
theorem eq_empty_or_reports {s : Token.Scan} (h : ofTokens s = .error e) :
    e = .empty ∧ s.tokens = [] ∧ s.fault = none ∨ Reports e .operand s := by
  rw [ofTokens] at h
  split at h
  · rename_i hempty
    exact Or.inl ⟨(Except.error.inj h).symm, hempty.1, by simpa using hempty.2⟩
  · cases hread : readOperand s.fault false s.tokens with
    | ok p =>
      rw [hread] at h
      cases h
    | error e' =>
      rw [hread] at h
      cases h
      exact Or.inr hread

end Chain

/-- The position of a fault, and how many characters from there on show it.  A text that ends too
early has none. -/
def ExprError.place? : ExprError → Option (Nat × Nat)
  | .disallowed _ i | .unexpected _ i => some (i, 1)
  | .leadingZero i | .increment i => some (i, 2)
  | .empty | .endOfInput | .tooLong _ | .nonFinite _ => none

namespace Expr

open Text Chain

/-- **A fault shows where the text breaks**, or that it lacks an operand.  The induction is on the
text in the order of reading, from either state and from any position. -/
theorem breaks_or_lacks {e : ExprError} (s : List Char) {k : Awaited} {p : Nat}
    (h : Reports e k (Token.scanFrom ⟨p, s⟩)) :
    (∃ i n, e.place? = some (p + i, n) ∧ Breaks k s i n) ∨ e = .endOfInput ∧ Lacks k s := by
  induction s using lexical_induction generalizing k p with
  | nil =>
    rw [Token.scanFrom_nil, reports_nil_iff] at h
    obtain h | ⟨-, rfl, rfl⟩ := h
    · cases h
    · have hnil : ¬Continues .operand [] := by simp [continues_nil_iff]
      exact Or.inr ⟨rfl, hnil, (continues_nil_or_one .operand).resolve_left hnil⟩
  | blank c s hb ih =>
    rw [Token.scanFrom_blank hb] at h
    obtain ⟨i, n, hplace, hbreaks⟩ | ⟨he, hlacks⟩ := ih h
    · rw [Nat.add_right_comm, Nat.add_assoc] at hplace
      exact Or.inl ⟨i + 1, n, hplace, hbreaks.blank hb⟩
    · exact Or.inr ⟨he, hlacks.blank hb⟩
  | operator o s ih =>
    rw [Token.scanFrom_operator] at h
    split at h
    · rename_i hsign
      rw [reports_nil_iff] at h
      obtain h | ⟨h, -⟩ := h
      · cases h
        refine Or.inl ⟨0, 2, rfl, breaks_zero fun t => ?_⟩
        cases s with
        | nil => cases hsign.2
        | cons c s =>
          obtain rfl : c = o.symbol := Option.some.inj hsign.2
          rw [List.take_succ_cons, List.take_succ_cons, List.cons_append, continues_operator_iff]
          exact fun h => h.2.1 ⟨hsign.1, rfl⟩
      · cases h
    · rename_i hsign
      rw [reports_operator_iff rfl] at h
      obtain ⟨hk, h⟩ | ⟨rfl, ho, rfl⟩ := h
      · obtain ⟨i, n, hplace, hbreaks⟩ | ⟨he, hlacks⟩ := ih h
        · rw [Nat.add_right_comm, Nat.add_assoc] at hplace
          exact Or.inl ⟨i + 1, n, hplace, hbreaks.operator hk hsign⟩
        · exact Or.inr ⟨he, hlacks.operator hk hsign⟩
      · refine Or.inl ⟨0, 1, rfl, breaks_zero fun t => ?_⟩
        rw [List.take_succ_cons, List.cons_append, continues_operator_iff, ho]
        exact fun h => by cases h.1 rfl
  | number ds s hne hds hs ih =>
    rw [Token.scanFrom_digits_append hne hds hs] at h
    obtain ⟨d, ds, rfl⟩ := List.exists_cons_of_ne_nil hne
    split at h
    · rename_i hzero
      rw [reports_nil_iff] at h
      obtain h | ⟨h, -⟩ := h
      · cases h
        obtain ⟨hlen, hhead⟩ := hzero
        obtain rfl : d = '0' := Option.some.inj hhead
        obtain ⟨c, ds, rfl⟩ : ∃ c r, ds = c :: r :=
          List.exists_cons_of_ne_nil fun hnil => by rw [hnil] at hlen; exact absurd hlen (by decide)
        exact Or.inl ⟨0, 2, rfl, breaks_zero fun t =>
          not_continues_zero_digit k (hds c (by simp)) t⟩
      · cases h
    · rename_i hzero
      rw [reports_number_iff rfl] at h
      obtain ⟨rfl, h⟩ | ⟨rfl, rfl⟩ := h
      · obtain ⟨i, n, hplace, hbreaks⟩ | ⟨he, hlacks⟩ := ih h
        · rw [Nat.add_assoc] at hplace
          exact Or.inl ⟨_, n, hplace, hbreaks.digits hne hds hs hzero⟩
        · exact Or.inr ⟨he, hlacks.digits hne hds hs hzero⟩
      · exact Or.inl ⟨0, 1, rfl, breaks_zero fun t =>
          not_continues_link_digit (hds d List.mem_cons_self) t⟩
  | other c s hb hd ho _ =>
    rw [Token.scanFrom_other hb hd ho, reports_nil_iff] at h
    obtain h | ⟨h, -⟩ := h
    · cases h
      exact Or.inl ⟨0, 1, rfl, breaks_zero fun t => not_continues_other k hb hd ho t⟩
    · cases h

/-- A text is accepted if it has a tree, however long it is. -/
def Accepted (s : List Char) : Prop := ∃ e, read s = .ok e

theorem accepted_iff_continues (s : List Char) : Accepted s ↔ Continues .operand s := by
  constructor
  · rintro ⟨e, he⟩
    obtain ⟨hlegal, -, w, hw, -⟩ := read_eq_ok_iff.1 he
    exact ⟨hlegal, w, hw⟩
  · intro h
    obtain ⟨e, he⟩ := IsEquation.exists_isTreeOf h
    exact ⟨e, read_eq_ok_iff.2 ⟨h.1, he⟩⟩

theorem ofTokens_eq_error_of_parse {s : List Char} {e : ExprError} (hlen : s.length ≤ maxLength)
    (h : parse s = .error e) : ofTokens (Token.scan s) = .error e := by
  rwa [parse, if_neg (Nat.not_lt.2 hlen), read, Except.map_eq_error_iff, readExact,
    Except.map_eq_error_iff] at h

theorem breaks_or_lacks_of_parse {s : List Char} {e : ExprError} (hlen : s.length ≤ maxLength)
    (h : parse s = .error e) : (∃ i n, e.place? = some (i, n) ∧ Breaks .operand s i n) ∨
      (e = .empty ∨ e = .endOfInput) ∧ Lacks .operand s := by
  obtain ⟨rfl, htokens, hfault⟩ | hreports :=
    eq_empty_or_reports (ofTokens_eq_error_of_parse hlen h)
  · -- but for its emptiness, an empty text would be reported as one that ends too early
    have hscan : Token.scan s = ⟨[], none⟩ := by rw [← htokens, ← hfault]
    have hreports : Reports .endOfInput .operand (Token.scan s) := by
      rw [hscan, reports_nil_iff]
      exact Or.inr ⟨rfl, rfl, rfl⟩
    obtain ⟨i, n, hplace, -⟩ | ⟨-, hlacks⟩ := breaks_or_lacks s (p := 0) hreports
    · cases hplace
    · exact Or.inr ⟨Or.inl rfl, hlacks⟩
  · obtain ⟨i, n, hplace, hbreaks⟩ | ⟨he, hlacks⟩ := breaks_or_lacks s (p := 0) hreports
    · rw [Nat.zero_add] at hplace
      exact Or.inl ⟨i, n, hplace, hbreaks⟩
    · exact Or.inr ⟨Or.inr he, hlacks⟩

/-- **Where the faults of a text stand.**  Up to the position of a fault the text is the beginning
of a text that is accepted, and with the one or two characters that show the fault it is no longer.
A fault without position means that the text ends too early: it is not accepted, and would be with
a digit at its end. -/
theorem parse_error_pinpoints {s : List Char} {e : ExprError} (hlen : s.length ≤ maxLength)
    (h : parse s = .error e) :
    (∀ i n, e.place? = some (i, n) → i < s.length ∧ (∃ t, s.take i <+: t ∧ Accepted t) ∧
      ∀ t, s.take (i + n) <+: t → ¬Accepted t) ∧
    (e.place? = none →
      (e = .empty ∨ e = .endOfInput) ∧ ¬Accepted s ∧ Accepted (s ++ ['1'])) := by
  simp only [accepted_iff_continues]
  obtain ⟨i, n, hplace, hbreaks⟩ | ⟨he, hlacks⟩ := breaks_or_lacks_of_parse hlen h
  · rw [hplace]
    refine ⟨fun j m hjm => ?_, fun hnone => by cases hnone⟩
    cases hjm
    refine ⟨hbreaks.lt, ?_, ?_⟩
    · rcases hbreaks.completed with hc | hc
      · exact ⟨_, List.prefix_rfl, hc⟩
      · exact ⟨_, List.prefix_append _ _, hc⟩
    · rintro _ ⟨t, rfl⟩
      exact hbreaks.stuck t
  · refine ⟨fun i n hplace => ?_, fun _ => ⟨he, hlacks.incomplete, hlacks.completed⟩⟩
    rcases he with rfl | rfl <;> cases hplace

/-- A factor with a zero in front: the text may still go on at the zero, and one digit later it
may not. -/
theorem padded_factor_breaks : parse "3*-012".toList = .error (.leadingZero 3) ∧
    (∃ t, "3*-".toList <+: t ∧ Accepted t) ∧ ∀ t, "3*-01".toList <+: t → ¬Accepted t := by
  have hscan : Token.scan "3*-012".toList = ⟨[⟨.number, 0, ['3']⟩, ⟨.operator .times, 1, ['*']⟩,
      ⟨.operator .minus, 2, ['-']⟩], some (.leadingZero 3)⟩ := by
    show Token.scanFrom ⟨0, ['3'] ++ Operator.times.symbol :: Operator.minus.symbol ::
      (['0', '1', '2'] ++ [])⟩ = _
    rw [Token.scanFrom_digits_append (by decide) (List.all_eq_true.1 rfl) (by rintro _ ⟨⟩; rfl),
      Token.scanFrom_operator, Token.scanFrom_operator,
      Token.scanFrom_digits_append (by decide) (List.all_eq_true.1 rfl) (by rintro _ ⟨⟩)]
    rfl
  have hparse : parse "3*-012".toList = .error (.leadingZero 3) := by
    rw [parse, if_neg (by decide), read, readExact, hscan]
    rfl
  have hplaced := (parse_error_pinpoints (by decide) hparse).1 3 2 rfl
  exact ⟨hparse, hplaced.2⟩

end Expr

end HiddenEquation
