import HiddenEquation.Proofs.Expr.Fault
import HiddenEquation.Proofs.Expr.Lexeme

/-!
# Spans of tokens

Where the tokens of a text stand in it.  `Token.StandsIn` cuts the text at a token: what is before,
the characters of the token, and what is after.  `Token.Cover` says of a list of tokens that they
are laid out over a text in order, and that what is left between them is blank.

* `Token.StandsIn.append` : a token keeps its place when characters are put in front of a text.
* `Token.Cover.blank`, `Token.Cover.token` : covers grow at the front as a text is read.
* `Token.cover_scanFrom` : what was read is covered, wherever reading ended.
* `Token.cover_scan` : the tokens of a text cover it up to its first fault.
-/

namespace HiddenEquation

namespace Token

open Text

/-- The position lies in the span of the token. -/
def Spans (t : Token) (i : Nat) : Prop := t.start ≤ i ∧ i < t.stop

/-- The token stands in a text that begins at position `p`.  A number is a run of digits that goes
on neither before nor after it, and has their value; an operator is its symbol. -/
def StandsIn (p : Nat) (s : List Char) (t : Token) : Prop :=
  ∃ before run after, s = before ++ run ++ after ∧ t.start = p + before.length ∧
    t.stop = t.start + run.length ∧
    match t.kind with
    | .number => run ≠ [] ∧ (∀ c ∈ run, c.isDigit = true) ∧
        (∀ c ∈ before.getLast?, c.isDigit = false) ∧ (∀ c ∈ after.head?, c.isDigit = false) ∧
        t.value = Decimal.digitsValue run
    | .operator o => run = [o.symbol]

/-- The tokens lie in order in a text that begins at position `p`, and all characters but the
blanks are in one of them. -/
structure Cover (p : Nat) (s : List Char) (ts : List Token) : Prop where
  /-- Every token has its place in the text. -/
  standsIn : ∀ t ∈ ts, t.StandsIn p s
  /-- No span is empty. -/
  nonempty : ∀ t ∈ ts, t.start < t.stop
  /-- The spans are ascending and disjoint. -/
  ascending : ts.Pairwise fun t u => t.stop ≤ u.start
  /-- The blanks are the characters outside all spans. -/
  blank_iff : ∀ (i : Nat) (c : Char), s[i]? = some c →
    (isBlank c = true ↔ ∀ t ∈ ts, ¬t.Spans (p + i))

variable {p : Nat} {ds s : List Char} {t : Token} {ts : List Token}

/-! ## Text in front of a token -/

/-- Characters in front of a text do not change how a token stands in it, unless they would make
one of its numbers longer. -/
theorem StandsIn.append (hedge : ∀ c ∈ ds.getLast?, ∀ d ∈ s.head?, d.isDigit = true →
    c.isDigit = false) (h : t.StandsIn (p + ds.length) s) : t.StandsIn p (ds ++ s) := by
  obtain ⟨before, run, after, rfl, hstart, hstop, hkind⟩ := h
  refine ⟨ds ++ before, run, after, by simp, by simp [hstart, Nat.add_assoc], hstop, ?_⟩
  cases hk : t.kind with
  | operator o =>
    rw [hk] at hkind
    exact hkind
  | number =>
    rw [hk] at hkind
    obtain ⟨hne, hrun, hbefore, hafter, hvalue⟩ := hkind
    refine ⟨hne, hrun, fun c hc => ?_, hafter, hvalue⟩
    cases before with
    | nil =>
      -- the run begins where the text began, so its first digit is the head of the text
      obtain ⟨d, run, rfl⟩ := List.exists_cons_of_ne_nil hne
      rw [List.append_nil] at hc
      exact hedge c hc d rfl (hrun d List.mem_cons_self)
    | cons b before =>
      rw [List.getLast?_append_of_ne_nil _ (List.cons_ne_nil b before)] at hc
      exact hbefore c hc

theorem StandsIn.le_start (h : t.StandsIn p s) : p ≤ t.start := by
  obtain ⟨before, -, -, -, hstart, -⟩ := h
  omega

/-! ## Covers grow at the front -/

theorem cover_nil (p : Nat) : Cover p [] [] :=
  ⟨by simp, by simp, .nil, fun i c hc => by simp at hc⟩

/-- A blank in front belongs to no token. -/
theorem Cover.blank {c : Char} (hb : isBlank c = true) (h : Cover (p + 1) s ts) :
    Cover p (c :: s) ts := by
  have hedge : ∀ d ∈ [c].getLast?, ∀ e ∈ s.head?, e.isDigit = true → d.isDigit = false := by
    intro d hd _ _ _
    obtain rfl : c = d := by simpa using hd
    exact not_isDigit_of_isBlank hb
  refine ⟨fun t ht => (h.standsIn t ht).append hedge, h.nonempty, h.ascending, fun i d hd => ?_⟩
  cases i with
  | zero =>
    obtain rfl : c = d := by simpa using hd
    refine iff_of_true hb fun t ht hspans => ?_
    have hstart := (h.standsIn t ht).le_start
    have hle := hspans.1
    omega
  | succ i =>
    rw [Nat.add_comm i 1, ← Nat.add_assoc]
    exact h.blank_iff i d hd

/-- A token in front takes all its characters, of which none is blank. -/
theorem Cover.token (hstart : t.start = p) (hstop : t.stop = p + ds.length) (hne : ds ≠ [])
    (hds : ∀ c ∈ ds, isBlank c = false) (hstands : t.StandsIn p (ds ++ s))
    (hedge : ∀ c ∈ ds.getLast?, ∀ d ∈ s.head?, d.isDigit = true → c.isDigit = false)
    (h : Cover (p + ds.length) s ts) : Cover p (ds ++ s) (t :: ts) := by
  have hpos : 0 < ds.length := List.length_pos_iff.2 hne
  have hlater : ∀ u ∈ ts, t.stop ≤ u.start := fun u hu =>
    hstop ▸ (h.standsIn u hu).le_start
  refine ⟨?_, ?_, List.pairwise_cons.2 ⟨hlater, h.ascending⟩, fun i c hc => ?_⟩
  · exact List.forall_mem_cons.2 ⟨hstands, fun u hu => (h.standsIn u hu).append hedge⟩
  · exact List.forall_mem_cons.2 ⟨by omega, h.nonempty⟩
  · rw [List.forall_mem_cons]
    by_cases hi : i < ds.length
    · -- the character is one of the token
      rw [List.getElem?_append_left hi] at hc
      refine iff_of_false ?_ fun hnone => hnone.1 ⟨by omega, by omega⟩
      rw [hds c (List.mem_of_getElem? hc)]
      exact Bool.false_ne_true
    · rw [List.getElem?_append_right (Nat.le_of_not_lt hi)] at hc
      have hpast : ¬t.Spans (p + i) := fun hspans => by
        have hlt := hspans.2
        omega
      have hrest := h.blank_iff _ c hc
      rw [Nat.add_assoc, Nat.add_sub_of_le (Nat.le_of_not_lt hi)] at hrest
      rw [hrest]
      exact ⟨fun hnone => ⟨hpast, hnone⟩, fun hnone => hnone.2⟩

theorem Cover.operator (o : Operator) (h : Cover (p + 1) s ts) :
    Cover p (o.symbol :: s) (⟨.operator o, p, [o.symbol]⟩ :: ts) := by
  change Cover p ([o.symbol] ++ s) _
  refine Cover.token rfl rfl (by simp) (by simp) ?_ (by simp) h
  exact ⟨[], [o.symbol], s, rfl, rfl, rfl, rfl⟩

theorem Cover.digits (hne : ds ≠ []) (hds : ∀ c ∈ ds, c.isDigit = true)
    (hs : ∀ c ∈ s.head?, c.isDigit = false) (h : Cover (p + ds.length) s ts) :
    Cover p (ds ++ s) (⟨.number, p, ds⟩ :: ts) := by
  refine Cover.token rfl rfl hne (fun c hc => not_isBlank_of_isDigit (hds c hc)) ?_ ?_ h
  · exact ⟨[], ds, s, rfl, rfl, rfl, hne, hds, by simp, hs, rfl⟩
  · intro _ _ d hd hdigit
    rw [hs d hd] at hdigit
    exact absurd hdigit Bool.false_ne_true

/-! ## The tokens that are read -/

/-- Reading a text that begins at position `p` ends after `i` characters: at the end of the text, or
at the place of its fault. -/
def EndsAfter (p : Nat) (s : List Char) (i : Nat) : Option ExprError → Prop
  | none => i = s.length
  | some e => i < s.length ∧ ∃ n, e.place? = some (p + i, n)

theorem EndsAfter.append {i : Nat} {fault : Option ExprError}
    (h : EndsAfter (p + ds.length) s i fault) : EndsAfter p (ds ++ s) (ds.length + i) fault := by
  cases fault with
  | none =>
    obtain rfl : i = s.length := h
    exact List.length_append.symm
  | some e =>
    obtain ⟨hi, n, hplace⟩ := h
    rw [EndsAfter, List.length_append, ← Nat.add_assoc]
    exact ⟨Nat.add_lt_add_left hi _, n, hplace⟩

theorem EndsAfter.cons {i : Nat} {fault : Option ExprError} (c : Char)
    (h : EndsAfter (p + 1) s i fault) : EndsAfter p (c :: s) (i + 1) fault := by
  have happend : EndsAfter p ([c] ++ s) ([c].length + i) fault := EndsAfter.append h
  rwa [List.length_singleton, Nat.add_comm] at happend

/-- A fault at the first character leaves nothing to cover. -/
theorem exists_cover_of_fault {e : ExprError} {n : Nat} (hplace : e.place? = some (p, n))
    (hne : s ≠ []) : ∃ i, Cover p (s.take i) [] ∧ EndsAfter p s i (some e) :=
  ⟨0, cover_nil p, List.length_pos_iff.2 hne, n, hplace⟩

/-- **What was read is covered**, to the end of the text or to the place of the fault that ended
it.  The induction is on the text in the order of reading, from any position. -/
theorem cover_scanFrom (s : List Char) (p : Nat) :
    ∃ i, Cover p (s.take i) (scanFrom ⟨p, s⟩).tokens ∧
      EndsAfter p s i (scanFrom ⟨p, s⟩).fault := by
  induction s using lexical_induction generalizing p with
  | nil =>
    rw [scanFrom_nil]
    exact ⟨0, cover_nil p, rfl⟩
  | blank c s hb ih =>
    obtain ⟨i, hcover, hend⟩ := ih (p + 1)
    rw [scanFrom_blank hb]
    exact ⟨i + 1, hcover.blank hb, hend.cons c⟩
  | operator o s ih =>
    rw [scanFrom_operator]
    split
    · exact exists_cover_of_fault rfl (List.cons_ne_nil _ _)
    · obtain ⟨i, hcover, hend⟩ := ih (p + 1)
      exact ⟨i + 1, hcover.operator o, hend.cons o.symbol⟩
  | number ds s hne hds hs ih =>
    rw [scanFrom_digits_append hne hds hs]
    split
    · exact exists_cover_of_fault rfl (List.append_ne_nil_of_left_ne_nil hne s)
    · obtain ⟨i, hcover, hend⟩ := ih (p + ds.length)
      refine ⟨ds.length + i, ?_, hend.append⟩
      rw [List.take_length_add_append]
      refine hcover.digits hne hds fun c hc => ?_
      cases i with
      | zero => cases hc
      | succ i =>
        rw [List.head?_take, if_neg (Nat.succ_ne_zero i)] at hc
        exact hs c hc
  | other c s hb hd ho _ =>
    rw [scanFrom_other hb hd ho]
    exact exists_cover_of_fault rfl (List.cons_ne_nil _ _)

/-- **Tokens cover a text without gap, overlap or loss.**  If a text is read without fault its
tokens cover it, and otherwise the tokens before the first fault cover the characters before it. -/
theorem cover_scan (s : List Char) :
    match (scan s).fault with
    | none => Cover 0 s (scan s).tokens
    | some e => ∃ i n, e.place? = some (i, n) ∧ i < s.length ∧ Cover 0 (s.take i) (scan s).tokens := by
  obtain ⟨i, hcover, hend⟩ := cover_scanFrom s 0
  change Cover 0 (s.take i) (scan s).tokens at hcover
  change EndsAfter 0 s i (scan s).fault at hend
  cases hfault : (scan s).fault with
  | none =>
    rw [hfault] at hend
    obtain rfl : i = s.length := hend
    rwa [List.take_length] at hcover
  | some e =>
    rw [hfault] at hend
    obtain ⟨hi, n, hplace⟩ := hend
    rw [Nat.zero_add] at hplace
    exact ⟨i, n, hplace, hi, hcover⟩

end Token

end HiddenEquation
