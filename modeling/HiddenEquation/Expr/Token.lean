import HiddenEquation.Text.Blank
import HiddenEquation.Decimal.Integer
import HiddenEquation.Expr.Error

/-!
# Tokens of an equation

A token is a run of digits or a single operator, together with where it starts.  Positions
count characters from zero, so they are the numbers of the slots of a guess.

`Scanner.next` reads one token and may be called again after a fault; `Token.scan` reads
tokens until the first fault or the end.

* `Scanner.rest_lt_of_next` : reading a token uses up characters.
-/

namespace HiddenEquation

/-- A token: its kind, the position of its first character, and its characters. -/
structure Token where
  kind : Token.Kind
  start : Nat
  text : List Char
deriving DecidableEq, Repr

namespace Token

/-- The position after the last character. -/
def stop (t : Token) : Nat := t.start + t.text.length

/-- The number that a run of digits stands for. -/
def value (t : Token) : Nat := Decimal.digitsValue t.text

end Token

/-- Where reading stands: the position of the next character, and the characters left. -/
structure Scanner where
  position : Nat
  rest : List Char
deriving DecidableEq, Repr

namespace Scanner

/-- The start of a text. -/
def ofText (s : List Char) : Scanner := ⟨0, s⟩

/-- The scanner with `n` characters fewer to read. -/
def advance (s : Scanner) (n : Nat) : Scanner := ⟨s.position + n, s.rest.drop n⟩

/-- The scanner at the next character that is not blank. -/
def skipBlanks (s : Scanner) : Scanner := s.advance (s.rest.takeWhile Text.isBlank).length

/-- The digits at the front. -/
def digits (s : Scanner) : List Char := s.rest.takeWhile Char.isDigit

/-- Reads a run of digits: several digits must not start with a zero. -/
def readNumber (s : Scanner) : Except ExprError Token × Scanner :=
  let ds := s.digits
  let after := s.advance ds.length
  if 1 < ds.length ∧ ds.head? = some '0' then (.error (.leadingZero s.position), after)
  else (.ok ⟨.number, s.position, ds⟩, after)

/-- Reads an operator.  A plus or a minus directly before another of its kind would be an
increment or a decrement, which stays where it is. -/
def readOperator (s : Scanner) (o : Operator) : Except ExprError Token × Scanner :=
  if o.isAdditive ∧ s.rest[1]? = some o.symbol then (.error (.increment s.position), s)
  else (.ok ⟨.operator o, s.position, [o.symbol]⟩, s.advance 1)

/-- Reads at a character that is not blank.  A character that no equation contains is
passed over and reported. -/
def readAt (s : Scanner) (c : Char) : Except ExprError Token × Scanner :=
  match Operator.ofChar? c with
  | some o => s.readOperator o
  | none =>
    if c.isDigit then s.readNumber else (.error (.disallowed c s.position), s.advance 1)

/-- Reads the next token after any blanks; nothing is read at the end of the text. -/
def next (s : Scanner) : Option (Except ExprError Token × Scanner) :=
  match s.skipBlanks.rest with
  | [] => none
  | c :: _ => some (s.skipBlanks.readAt c)

theorem length_advance (s : Scanner) (n : Nat) :
    (s.advance n).rest.length = s.rest.length - n := by simp [advance]

theorem length_skipBlanks_le (s : Scanner) : s.skipBlanks.rest.length ≤ s.rest.length := by
  rw [skipBlanks, length_advance]
  omega

/-- Reading a token uses up characters. -/
theorem rest_lt_of_next {s s' : Scanner} {t : Token} (h : s.next = some (.ok t, s')) :
    s'.rest.length < s.rest.length := by
  have hle := s.length_skipBlanks_le
  unfold next at h
  split at h
  · cases h
  · rename_i c cs hcs
    have hpos : 0 < s.skipBlanks.rest.length := by simp [hcs]
    rw [Option.some.injEq] at h
    unfold readAt at h
    split at h
    · unfold readOperator at h
      split at h
      · cases h
      · cases h
        rw [length_advance]
        omega
    · split at h
      · rename_i hd
        unfold readNumber at h
        dsimp only at h
        split at h
        · cases h
        · cases h
          have : 0 < s.skipBlanks.digits.length := by simp [digits, hcs, hd]
          rw [length_advance]
          omega
      · cases h

end Scanner

namespace Token

/-- The tokens before the first fault, and that fault if there is one. -/
structure Scan where
  tokens : List Token
  fault : Option ExprError

/-- Reads tokens from where the scanner stands. -/
def scanFrom (s : Scanner) : Scan :=
  match h : s.next with
  | none => ⟨[], none⟩
  | some (.error e, _) => ⟨[], some e⟩
  | some (.ok t, s') =>
    have := Scanner.rest_lt_of_next h
    let more := scanFrom s'
    ⟨t :: more.tokens, more.fault⟩
termination_by s.rest.length

/-- The tokens of a text. -/
def scan (s : List Char) : Scan := scanFrom (.ofText s)

end Token

end HiddenEquation
