import HiddenEquation.Expr.Token
import Mathlib.Data.List.SplitBy
import Mathlib.Data.List.TakeWhile

/-!
# Lexemes of a text

What a text consists of, said without a scanner.  `Text.runs` cuts a text into its maximal
runs of digits and, one by one, its other characters; `Text.lexemes` keeps the numbers and
the operators among these; `Text.Legal` says which texts can be cut into tokens at all.

`Text.lexical_induction` follows a text in the order in which it is read, and the equations
`Token.scanFrom_*` say what the scanner does in each of its cases.  From these:

* `Token.fault_scanFrom_eq_none_iff` : a text is read without fault exactly if it is legal.
* `Token.lexemes_scanFrom` : the tokens of such a text are its lexemes.
-/

namespace HiddenEquation

/-- A symbol of an equation: a run of digits or an operator. -/
inductive Lexeme where
  | number (digits : List Char)
  | operator (o : Operator)
deriving DecidableEq, Repr

namespace Text

/-- The maximal runs of digits of a text, and each of its other characters by itself. -/
def runs (s : List Char) : List (List Char) := s.splitBy fun c d => c.isDigit && d.isDigit

/-- The symbol that a run stands for; blanks stand for none. -/
def lexeme? : List Char → Option Lexeme
  | [] => none
  | c :: run =>
    match Operator.ofChar? c with
    | some o => some (.operator o)
    | none => if c.isDigit then some (.number (c :: run)) else none

/-- The runs of digits and the operators of a text, in order. -/
def lexemes (s : List Char) : List Lexeme := (runs s).filterMap lexeme?

/-- What the characters of an equation must satisfy, whatever their order means. -/
structure Legal (s : List Char) : Prop where
  /-- Only blanks, digits and operators occur. -/
  alphabet : ∀ c ∈ s, isBlank c = true ∨ c.isDigit = true ∨ c ∈ ['+', '-', '*', '/']
  /-- No two neighbours are both `+` or both `-`. -/
  signs : s.IsChain fun c d => ¬(c = '+' ∧ d = '+') ∧ ¬(c = '-' ∧ d = '-')
  /-- No run of several digits starts with a zero. -/
  zeros : ∀ run ∈ runs s, 1 < run.length → run.head? ≠ some '0'

instance (s : List Char) : Decidable (Legal s) :=
  decidable_of_iff
    ((s.all fun c => isBlank c || c.isDigit || ['+', '-', '*', '/'].contains c) = true ∧
      (s.IsChain fun c d => ¬(c = '+' ∧ d = '+') ∧ ¬(c = '-' ∧ d = '-')) ∧
      ((runs s).all fun run => !decide (1 < run.length) || run.head? != some '0') = true)
    ⟨fun ⟨halpha, hsigns, hzeros⟩ => ⟨by simpa [or_assoc] using halpha, hsigns,
        by simpa [Nat.not_lt, imp_iff_not_or] using hzeros⟩,
      fun ⟨halpha, hsigns, hzeros⟩ => ⟨by simpa [or_assoc] using halpha, hsigns,
        by simpa [Nat.not_lt, imp_iff_not_or] using hzeros⟩⟩

/-! ## Characters of an equation -/

theorem symbol_mem (o : Operator) : o.symbol ∈ ['+', '-', '*', '/'] := by
  cases o <;> decide

theorem exists_symbol_of_mem {c : Char} (h : c ∈ ['+', '-', '*', '/']) :
    ∃ o : Operator, c = o.symbol := by
  simp only [List.mem_cons, List.not_mem_nil, or_false] at h
  rcases h with rfl | rfl | rfl | rfl
  · exact ⟨.plus, rfl⟩
  · exact ⟨.minus, rfl⟩
  · exact ⟨.times, rfl⟩
  · exact ⟨.divide, rfl⟩

@[simp] theorem isDigit_symbol (o : Operator) : o.symbol.isDigit = false := by
  cases o <;> rfl

@[simp] theorem isBlank_symbol (o : Operator) : isBlank o.symbol = false := by
  cases o <;> decide

theorem not_isDigit_of_isBlank {c : Char} (h : isBlank c = true) : c.isDigit = false := by
  by_contra hd
  rw [Bool.not_eq_false] at hd
  rw [not_isBlank_of_isDigit hd] at h
  exact Bool.false_ne_true h

theorem ofChar?_eq_none_of_isDigit {c : Char} (h : c.isDigit = true) :
    Operator.ofChar? c = none := by
  cases ho : Operator.ofChar? c with
  | none => rfl
  | some o =>
    rw [Operator.eq_symbol_of_ofChar? ho, isDigit_symbol] at h
    exact absurd h Bool.false_ne_true

theorem ofChar?_eq_none_of_isBlank {c : Char} (h : isBlank c = true) :
    Operator.ofChar? c = none := by
  cases ho : Operator.ofChar? c with
  | none => rfl
  | some o =>
    rw [Operator.eq_symbol_of_ofChar? ho, isBlank_symbol] at h
    exact absurd h Bool.false_ne_true

/-- Induction over a text in the order of reading: a blank, an operator, a whole run of
digits, or a character that no equation contains. -/
@[elab_as_elim]
theorem lexical_induction {P : List Char → Prop} (nil : P [])
    (blank : ∀ c s, isBlank c = true → P s → P (c :: s))
    (operator : ∀ (o : Operator) s, P s → P (o.symbol :: s))
    (number : ∀ ds s, ds ≠ [] → (∀ c ∈ ds, c.isDigit = true) →
      (∀ c ∈ s.head?, c.isDigit = false) → P s → P (ds ++ s))
    (other : ∀ c s, isBlank c = false → c.isDigit = false → Operator.ofChar? c = none →
      P s → P (c :: s)) (s : List Char) : P s := by
  induction hn : s.length using Nat.strong_induction_on generalizing s with
  | _ n ih =>
    subst hn
    cases s with
    | nil => exact nil
    | cons c s =>
      have hs : P s := ih s.length (by simp) s rfl
      by_cases hb : isBlank c = true
      · exact blank c s hb hs
      · by_cases hd : c.isDigit = true
        · -- the run is taken off as a whole, since what is left must not start with a digit
          rw [← List.takeWhile_append_dropWhile (p := Char.isDigit) (l := c :: s)]
          refine number _ _ (by simp [hd]) (fun x hx => ?_) (fun x hx => ?_) ?_
          · exact List.mem_takeWhile_imp hx
          · have := List.head?_dropWhile_not Char.isDigit (c :: s)
            rw [Option.mem_def] at hx
            simpa [hx] using this
          · refine ih _ ?_ _ rfl
            rw [List.dropWhile_cons_of_pos hd, List.length_cons]
            exact Nat.lt_succ_of_le (List.dropWhile_sublist _).length_le
        · cases ho : Operator.ofChar? c with
          | some o =>
            rw [Operator.eq_symbol_of_ofChar? ho]
            exact operator o s hs
          | none => exact other c s (by simpa using hb) (by simpa using hd) ho hs

/-! ## Runs and lexemes, case by case -/

@[simp] theorem runs_nil : runs [] = [] := rfl

theorem runs_cons {c : Char} (h : c.isDigit = false) (s : List Char) :
    runs (c :: s) = [c] :: runs s := by
  have happ : runs ([c] ++ s) = runs [c] ++ runs s := by
    refine List.splitBy_append fun x hx y _ => ?_
    rw [List.getLast?_singleton, Option.mem_some_iff] at hx
    rw [← hx, h, Bool.false_and]
  exact happ

theorem runs_digits_append {ds s : List Char} (hne : ds ≠ []) (hds : ∀ c ∈ ds, c.isDigit = true)
    (hs : ∀ c ∈ s.head?, c.isDigit = false) : runs (ds ++ s) = ds :: runs s := by
  have hchain : ds.IsChain fun c d => (c.isDigit && d.isDigit) = true := by
    rw [List.isChain_iff_getElem]
    intro i hi
    rw [hds _ (List.getElem_mem _), hds _ (List.getElem_mem _)]
    rfl
  have happ : runs (ds ++ s) = runs ds ++ runs s := by
    refine List.splitBy_append fun x _ y hy => ?_
    rw [hs y hy, Bool.and_false]
  rw [happ, show runs ds = [ds] from List.splitBy_of_isChain hne hchain]
  rfl

/-- No run goes on across a character that is no digit. -/
theorem runs_append_cons {c : Char} (h : c.isDigit = false) (s t : List Char) :
    runs (s ++ c :: t) = runs s ++ runs (c :: t) := by
  refine List.splitBy_append fun x _ y hy => ?_
  rw [List.head?_cons, Option.mem_some] at hy
  rw [← hy, h, Bool.and_false]

@[simp] theorem lexemes_nil : lexemes [] = [] := rfl

theorem lexemes_blank {c : Char} (h : isBlank c = true) (s : List Char) :
    lexemes (c :: s) = lexemes s := by
  have hd := not_isDigit_of_isBlank h
  rw [lexemes, runs_cons hd, List.filterMap_cons_none]
  · rfl
  · simp [lexeme?, ofChar?_eq_none_of_isBlank h, hd]

/-- A blank parts a text. -/
theorem lexemes_append_blank {c : Char} (h : isBlank c = true) (s t : List Char) :
    lexemes (s ++ c :: t) = lexemes s ++ lexemes t := by
  rw [← lexemes_blank h t, lexemes, runs_append_cons (not_isDigit_of_isBlank h),
    List.filterMap_append]
  rfl

theorem lexemes_operator (o : Operator) (s : List Char) :
    lexemes (o.symbol :: s) = .operator o :: lexemes s := by
  rw [lexemes, runs_cons (isDigit_symbol o), List.filterMap_cons_some (b := .operator o)]
  · rfl
  · simp [lexeme?]

theorem lexemes_digits_append {ds s : List Char} (hne : ds ≠ [])
    (hds : ∀ c ∈ ds, c.isDigit = true) (hs : ∀ c ∈ s.head?, c.isDigit = false) :
    lexemes (ds ++ s) = .number ds :: lexemes s := by
  rw [lexemes, runs_digits_append hne hds hs, List.filterMap_cons_some (b := .number ds)]
  · rfl
  · cases ds with
    | nil => exact absurd rfl hne
    | cons d ds =>
      have hd : d.isDigit = true := hds d (by simp)
      simp [lexeme?, ofChar?_eq_none_of_isDigit hd, hd]

example : lexemes "-12 * 3".toList =
    [.operator .minus, .number ['1', '2'], .operator .times, .number ['3']] := rfl

/-! ## Legal texts, case by case -/

theorem legal_nil : Legal [] := ⟨by simp, List.isChain_nil, by simp⟩

/-- A character that is no digit adds no run of several characters, so a legal text may
begin with it if it is allowed and is no sign in front of its like. -/
theorem legal_cons_iff {c : Char} (hd : c.isDigit = false) (s : List Char) :
    Legal (c :: s) ↔ (isBlank c = true ∨ c ∈ ['+', '-', '*', '/']) ∧
      (∀ d ∈ s.head?, ¬(c = '+' ∧ d = '+') ∧ ¬(c = '-' ∧ d = '-')) ∧ Legal s := by
  constructor
  · rintro ⟨halpha, hsigns, hzeros⟩
    rw [runs_cons hd] at hzeros
    rw [List.isChain_cons] at hsigns
    have hc := halpha c (by simp)
    rw [hd] at hc
    exact ⟨by simpa using hc, hsigns.1, fun d hd => halpha d (by simp [hd]), hsigns.2,
      fun run hrun => hzeros run (by simp [hrun])⟩
  · rintro ⟨hc, hhead, halpha, hsigns, hzeros⟩
    refine ⟨fun d hmem => ?_, List.isChain_cons.2 ⟨hhead, hsigns⟩, fun run hrun hlen => ?_⟩
    · rcases List.mem_cons.1 hmem with rfl | hmem
      · rcases hc with hc | hc
        · exact Or.inl hc
        · exact Or.inr (Or.inr hc)
      · exact halpha d hmem
    · rw [runs_cons hd] at hrun
      rcases List.mem_cons.1 hrun with rfl | hrun
      · exact absurd hlen (by simp)
      · exact hzeros run hrun hlen

theorem legal_blank_iff {c : Char} (h : isBlank c = true) (s : List Char) :
    Legal (c :: s) ↔ Legal s := by
  have hplus : c ≠ '+' := by rintro rfl; exact absurd h (by decide)
  have hminus : c ≠ '-' := by rintro rfl; exact absurd h (by decide)
  rw [legal_cons_iff (not_isDigit_of_isBlank h)]
  simp [h, hplus, hminus]

theorem Legal.append_blank {c : Char} {s t : List Char} (hs : Legal s) (h : isBlank c = true)
    (ht : Legal t) : Legal (s ++ c :: t) := by
  have hct := (legal_blank_iff h t).2 ht
  refine ⟨fun d hd => ?_, List.isChain_append.2 ⟨hs.signs, hct.signs, fun _ _ d hd => ?_⟩,
    fun run hrun => ?_⟩
  · rcases List.mem_append.1 hd with hd | hd
    · exact hs.alphabet d hd
    · exact hct.alphabet d hd
  · rw [List.head?_cons, Option.mem_some] at hd
    subst hd
    exact ⟨by rintro ⟨-, rfl⟩; exact absurd h (by decide),
      by rintro ⟨-, rfl⟩; exact absurd h (by decide)⟩
  · rw [runs_append_cons (not_isDigit_of_isBlank h)] at hrun
    rcases List.mem_append.1 hrun with hrun | hrun
    · exact hs.zeros run hrun
    · exact hct.zeros run hrun

/-- An operator and the character after it are two equal signs if it is a sign and they agree. -/
theorem signs_iff_head? (o : Operator) (s : List Char) :
    (∀ d ∈ s.head?, ¬(o.symbol = '+' ∧ d = '+') ∧ ¬(o.symbol = '-' ∧ d = '-')) ↔
      ¬(o.isAdditive = true ∧ s.head? = some o.symbol) := by
  cases s with
  | nil => simp
  | cons d s => cases o <;> simp [Operator.symbol, Operator.isAdditive]

theorem legal_operator_iff (o : Operator) (s : List Char) :
    Legal (o.symbol :: s) ↔ ¬(o.isAdditive = true ∧ s.head? = some o.symbol) ∧ Legal s := by
  rw [legal_cons_iff (isDigit_symbol o), signs_iff_head?]
  simp [symbol_mem o]

theorem legal_digits_append_iff {ds s : List Char} (hne : ds ≠ [])
    (hds : ∀ c ∈ ds, c.isDigit = true) (hs : ∀ c ∈ s.head?, c.isDigit = false) :
    Legal (ds ++ s) ↔ ¬(1 < ds.length ∧ ds.head? = some '0') ∧ Legal s := by
  have hplus : ∀ c ∈ ds, c ≠ '+' := by rintro c hc rfl; exact absurd (hds _ hc) (by decide)
  have hminus : ∀ c ∈ ds, c ≠ '-' := by rintro c hc rfl; exact absurd (hds _ hc) (by decide)
  constructor
  · rintro ⟨halpha, hsigns, hzeros⟩
    rw [runs_digits_append hne hds hs] at hzeros
    refine ⟨fun h => hzeros ds (by simp) h.1 h.2, fun c hc => halpha c (by simp [hc]),
      (List.isChain_append.1 hsigns).2.1, fun run hrun => hzeros run (by simp [hrun])⟩
  · rintro ⟨hzero, halpha, hsigns, hzeros⟩
    refine ⟨fun c hc => ?_, List.isChain_append.2 ⟨?_, hsigns, fun c hc d _ => ?_⟩, ?_⟩
    · rcases List.mem_append.1 hc with hc | hc
      · exact Or.inr (Or.inl (hds c hc))
      · exact halpha c hc
    · rw [List.isChain_iff_getElem]
      intro i hi
      exact ⟨fun h => hplus _ (List.getElem_mem _) h.1, fun h => hminus _ (List.getElem_mem _) h.1⟩
    · have hmem := List.mem_of_getLast? hc
      exact ⟨fun h => hplus c hmem h.1, fun h => hminus c hmem h.1⟩
    · rw [runs_digits_append hne hds hs]
      intro run hrun hlen hhead
      rcases List.mem_cons.1 hrun with rfl | hrun
      · exact hzero ⟨hlen, hhead⟩
      · exact hzeros run hrun hlen hhead

theorem not_legal_other {c : Char} (hb : isBlank c = false) (hd : c.isDigit = false)
    (ho : Operator.ofChar? c = none) (s : List Char) : ¬Legal (c :: s) := by
  rw [legal_cons_iff hd]
  rintro ⟨hc | hc, -⟩
  · rw [hb] at hc
    exact Bool.false_ne_true hc
  · obtain ⟨o, rfl⟩ := exists_symbol_of_mem hc
    rw [Operator.ofChar?_symbol] at ho
    exact absurd ho (by simp)

end Text

/-! ## What the scanner reads -/

namespace Scanner

open Text

theorem skipBlanks_blank {c : Char} (h : isBlank c = true) (p : Nat) (s : List Char) :
    skipBlanks ⟨p, c :: s⟩ = skipBlanks ⟨p + 1, s⟩ := by
  simp only [skipBlanks, advance, List.takeWhile_cons, h, if_true, List.length_cons,
    List.drop_succ_cons, mk.injEq, and_true]
  omega

theorem skipBlanks_of_not_isBlank {c : Char} (h : isBlank c = false) (p : Nat) (s : List Char) :
    skipBlanks ⟨p, c :: s⟩ = ⟨p, c :: s⟩ := by
  simp [skipBlanks, advance, h]

theorem next_nil (p : Nat) : next ⟨p, []⟩ = none := rfl

theorem next_blank {c : Char} (h : isBlank c = true) (p : Nat) (s : List Char) :
    next ⟨p, c :: s⟩ = next ⟨p + 1, s⟩ := by
  unfold next
  rw [skipBlanks_blank h]

theorem next_of_not_isBlank {c : Char} (h : isBlank c = false) (p : Nat) (s : List Char) :
    next ⟨p, c :: s⟩ = some (readAt ⟨p, c :: s⟩ c) := by
  unfold next
  rw [skipBlanks_of_not_isBlank h]

theorem next_operator (o : Operator) (p : Nat) (s : List Char) :
    next ⟨p, o.symbol :: s⟩ = some (readOperator ⟨p, o.symbol :: s⟩ o) := by
  rw [next_of_not_isBlank (isBlank_symbol o), readAt, Operator.ofChar?_symbol]

/-- An operator is read, unless it is a sign in front of its like, which stays where it is. -/
theorem readOperator_cons (o : Operator) (p : Nat) (s : List Char) :
    readOperator ⟨p, o.symbol :: s⟩ o =
      if o.isAdditive = true ∧ s.head? = some o.symbol then
        (.error (.increment p), ⟨p, o.symbol :: s⟩)
      else (.ok ⟨.operator o, p, [o.symbol]⟩, ⟨p + 1, s⟩) := by
  simp only [readOperator, List.getElem?_cons_succ, ← List.head?_eq_getElem?]
  rfl

theorem digits_append {ds s : List Char} (hds : ∀ c ∈ ds, c.isDigit = true)
    (hs : ∀ c ∈ s.head?, c.isDigit = false) (p : Nat) : digits ⟨p, ds ++ s⟩ = ds := by
  rw [digits, List.takeWhile_append_of_pos hds]
  cases s with
  | nil => simp
  | cons c s => simp [hs c (by simp)]

theorem next_digits {ds s : List Char} (hne : ds ≠ []) (hds : ∀ c ∈ ds, c.isDigit = true)
    (p : Nat) : next ⟨p, ds ++ s⟩ = some (readNumber ⟨p, ds ++ s⟩) := by
  cases ds with
  | nil => exact absurd rfl hne
  | cons d ds =>
    have hd : d.isDigit = true := hds d (by simp)
    rw [List.cons_append, next_of_not_isBlank (not_isBlank_of_isDigit hd), readAt,
      ofChar?_eq_none_of_isDigit hd]
    simp only [hd, if_true]

/-- A run of digits is passed over; it is a number unless it has several digits and starts with a
zero. -/
theorem readNumber_append {ds s : List Char} (hds : ∀ c ∈ ds, c.isDigit = true)
    (hs : ∀ c ∈ s.head?, c.isDigit = false) (p : Nat) : readNumber ⟨p, ds ++ s⟩ =
      (if 1 < ds.length ∧ ds.head? = some '0' then .error (.leadingZero p)
        else .ok ⟨.number, p, ds⟩, ⟨p + ds.length, s⟩) := by
  simp only [readNumber, digits_append hds hs, advance, List.drop_left]
  split <;> rfl

theorem next_other {c : Char} (hb : isBlank c = false) (hd : c.isDigit = false)
    (ho : Operator.ofChar? c = none) (p : Nat) (s : List Char) :
    next ⟨p, c :: s⟩ = some (.error (.disallowed c p), ⟨p + 1, s⟩) := by
  rw [next_of_not_isBlank hb, readAt, ho]
  simp [hd, advance]

end Scanner

namespace Token

open Text

/-- The symbol that a token stands for. -/
def lexeme (t : Token) : Lexeme :=
  match t.kind with
  | .number => .number t.text
  | .operator o => .operator o

/-- A scan is its next token and the scan of what is left after it. -/
theorem scanFrom_eq (s : Scanner) : scanFrom s =
    match s.next with
    | none => ⟨[], none⟩
    | some (.error e, _) => ⟨[], some e⟩
    | some (.ok t, s') => ⟨t :: (scanFrom s').tokens, (scanFrom s').fault⟩ := by
  rw [scanFrom]
  split
  · rename_i hn
    rw [hn]
  · rename_i he
    rw [he]
  · rename_i ht
    simp only [ht]

theorem scanFrom_of_next_error {s s' : Scanner} {e : ExprError}
    (h : s.next = some (.error e, s')) : scanFrom s = ⟨[], some e⟩ := by
  rw [scanFrom_eq, h]

theorem scanFrom_of_next_ok {s s' : Scanner} {t : Token} (h : s.next = some (.ok t, s')) :
    scanFrom s = ⟨t :: (scanFrom s').tokens, (scanFrom s').fault⟩ := by
  rw [scanFrom_eq, h]

theorem scanFrom_nil (p : Nat) : scanFrom ⟨p, []⟩ = ⟨[], none⟩ := by
  rw [scanFrom_eq, Scanner.next_nil]

/-- A blank only moves the scanner on. -/
theorem scanFrom_blank {c : Char} (h : isBlank c = true) (p : Nat) (s : List Char) :
    scanFrom ⟨p, c :: s⟩ = scanFrom ⟨p + 1, s⟩ := by
  rw [scanFrom_eq, scanFrom_eq ⟨p + 1, s⟩, Scanner.next_blank h]

/-- An operator is a token, unless it is a sign in front of its like. -/
theorem scanFrom_operator (o : Operator) (p : Nat) (s : List Char) :
    scanFrom ⟨p, o.symbol :: s⟩ =
      if o.isAdditive = true ∧ s.head? = some o.symbol then ⟨[], some (.increment p)⟩
      else ⟨⟨.operator o, p, [o.symbol]⟩ :: (scanFrom ⟨p + 1, s⟩).tokens,
        (scanFrom ⟨p + 1, s⟩).fault⟩ := by
  have hnext := Scanner.next_operator o p s
  rw [Scanner.readOperator_cons] at hnext
  split
  · rename_i h
    rw [if_pos h] at hnext
    exact scanFrom_of_next_error hnext
  · rename_i h
    rw [if_neg h] at hnext
    exact scanFrom_of_next_ok hnext

/-- A run of digits is a token, unless it has several digits and starts with a zero. -/
theorem scanFrom_digits_append {ds s : List Char} (hne : ds ≠ [])
    (hds : ∀ c ∈ ds, c.isDigit = true) (hs : ∀ c ∈ s.head?, c.isDigit = false) (p : Nat) :
    scanFrom ⟨p, ds ++ s⟩ =
      if 1 < ds.length ∧ ds.head? = some '0' then ⟨[], some (.leadingZero p)⟩
      else ⟨⟨.number, p, ds⟩ :: (scanFrom ⟨p + ds.length, s⟩).tokens,
        (scanFrom ⟨p + ds.length, s⟩).fault⟩ := by
  have hnext := Scanner.next_digits (s := s) hne hds p
  rw [Scanner.readNumber_append hds hs] at hnext
  split
  · rename_i h
    rw [if_pos h] at hnext
    exact scanFrom_of_next_error hnext
  · rename_i h
    rw [if_neg h] at hnext
    exact scanFrom_of_next_ok hnext

theorem scanFrom_other {c : Char} (hb : isBlank c = false) (hd : c.isDigit = false)
    (ho : Operator.ofChar? c = none) (p : Nat) (s : List Char) :
    scanFrom ⟨p, c :: s⟩ = ⟨[], some (.disallowed c p)⟩ :=
  scanFrom_of_next_error (Scanner.next_other hb hd ho p s)

/-- A text is read to its end without fault exactly if it is legal. -/
theorem fault_scanFrom_eq_none_iff (p : Nat) (s : List Char) :
    (scanFrom ⟨p, s⟩).fault = none ↔ Legal s := by
  induction s using lexical_induction generalizing p with
  | nil =>
    rw [scanFrom_nil]
    exact iff_of_true rfl legal_nil
  | blank c s hb ih => rw [scanFrom_blank hb, legal_blank_iff hb, ih]
  | operator o s ih =>
    rw [scanFrom_operator, legal_operator_iff, ← ih (p + 1)]
    split <;> simp [*]
  | number ds s hne hds hs ih =>
    rw [scanFrom_digits_append hne hds hs, legal_digits_append_iff hne hds hs,
      ← ih (p + ds.length)]
    split <;> simp [*]
  | other c s hb hd ho _ =>
    rw [scanFrom_other hb hd ho]
    exact iff_of_false (by simp) (not_legal_other hb hd ho s)

/-- The tokens of a legal text are its lexemes. -/
theorem lexemes_scanFrom {s : List Char} (h : Legal s) (p : Nat) :
    (scanFrom ⟨p, s⟩).tokens.map lexeme = lexemes s := by
  induction s using lexical_induction generalizing p with
  | nil => rw [scanFrom_nil, lexemes_nil, List.map_nil]
  | blank c s hb ih =>
    rw [scanFrom_blank hb, lexemes_blank hb, ih ((legal_blank_iff hb s).1 h)]
  | operator o s ih =>
    obtain ⟨hsign, hs⟩ := (legal_operator_iff o s).1 h
    rw [scanFrom_operator, if_neg hsign, lexemes_operator, List.map_cons, ih hs]
    rfl
  | number ds s hne hds hd ih =>
    obtain ⟨hzero, hs⟩ := (legal_digits_append_iff hne hds hd).1 h
    rw [scanFrom_digits_append hne hds hd, if_neg hzero, lexemes_digits_append hne hds hd,
      List.map_cons, ih hs]
    rfl
  | other c s hb hd ho _ => exact absurd h (not_legal_other hb hd ho s)

end Token

end HiddenEquation
