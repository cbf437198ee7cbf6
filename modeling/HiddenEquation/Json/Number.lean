import HiddenEquation.Json.Reader

/-!
# Numbers in JSON text

A numeral is read as an integer significand, kept below `2 ^ 64`, and a power of ten.
Digits that no longer fit are dropped: in the whole part they raise the exponent, after the
point they count for nothing.  A numeral without point and exponent is an integer if it fits
into 64 bits; any other is a double, the significand scaled by the power of ten, which
rounds twice and is therefore not always the nearest double.
-/

namespace HiddenEquation.Json

/-- A number as it is read: an integer of 64 bits or a double. -/
inductive Number where
  | integer (n : Int)
  | double (x : Float)

/-- The parts of a numeral.  Without point, exponent and dropped digits there is no scale. -/
structure Numeral where
  negative : Bool
  significand : Nat
  scale : Option Int
deriving DecidableEq, Repr

/-! ## Values -/

/-- The greatest power of ten that scales in one step. -/
def maxPower : Nat := 308

/-- The double nearest to a power of ten. -/
def powerOfTen (n : Nat) : Float := Float.ofNat (Nat.pow 10 n)

/-- Divides by `10 ^ n`, in several steps if there is no double for that power. -/
def divideByPower (f : Float) (n : Nat) : Float :=
  if n ≤ maxPower then f / powerOfTen n
  else if f == 0 then f
  else divideByPower (f / powerOfTen maxPower) (n - maxPower)
termination_by n
decreasing_by simp only [maxPower] at *; omega

/-- The significand times a power of ten; a number too large for a double is malformed. -/
def scaleUp (significand : Nat) (n : Nat) : Except Fault Float :=
  if n ≤ maxPower then
    let f := Float.ofNat significand * powerOfTen n
    if f.isInf then .error .malformed else .ok f
  else if significand = 0 then .ok 0
  else .error .malformed

/-- The magnitude of a numeral with a scale. -/
def scaled (significand : Nat) (scale : Int) : Except Fault Float :=
  if 0 ≤ scale then scaleUp significand scale.toNat
  else .ok (divideByPower (Float.ofNat significand) (-scale).toNat)

/-- The number that a numeral stands for.  Minus zero is a double. -/
def Numeral.number (n : Numeral) : Except Fault Number :=
  match n.scale with
  | some scale =>
    match scaled n.significand scale with
    | .ok f => .ok (.double (if n.negative then -f else f))
    | .error e => .error e
  | none =>
    if n.negative then
      if 0 < n.significand ∧ n.significand ≤ 0x8000000000000000 then .ok (.integer (-n.significand))
      else .ok (.double (-(Float.ofNat n.significand)))
    else .ok (.integer n.significand)

/-! ## Reading -/

/-- Appends digits to a significand as long as it stays below `2 ^ 64`.  Gives the
significand, the number of digits taken, and the text after them. -/
def takeDigits (n : Nat) : List Char → Nat × Nat × List Char
  | [] => (n, 0, [])
  | c :: rest =>
    if c.isDigit ∧ 10 * n + Decimal.digitValue c < UInt64.size then
      let more := takeDigits (10 * n + Decimal.digitValue c) rest
      (more.1, more.2.1 + 1, more.2.2)
    else (n, 0, c :: rest)

/-- The text after its leading digits. -/
def dropDigits (s : List Char) : List Char := s.dropWhile Char.isDigit

/-- Reads the digits of an exponent, of which there must be one. -/
def readExponentDigits (negative : Bool) (s : List Char) : Outcome Int :=
  let ds := s.takeWhile Char.isDigit
  if ds = [] then faultAt s
  else
    let n : Int := Decimal.digitsValue ds
    .ok (if negative then -n else n, dropDigits s)

/-- Reads an exponent after its mark. -/
def readExponent : List Char → Outcome Int
  | '+' :: rest => readExponentDigits false rest
  | '-' :: rest => readExponentDigits true rest
  | s => readExponentDigits false s

/-- Reads the exponent of a numeral if one follows. -/
def readTail (negative : Bool) (significand : Nat) (scale : Option Int) (s : List Char) :
    Outcome Numeral :=
  match s with
  | [] => .ok (⟨negative, significand, scale⟩, s)
  | c :: rest =>
    if c = 'e' ∨ c = 'E' then
      match readExponent rest with
      | .ok (e, rest) => .ok (⟨negative, significand, some (scale.getD 0 + e)⟩, rest)
      | .error e => .error e
    else .ok (⟨negative, significand, scale⟩, s)

/-- Reads the digits after a decimal point, of which there must be one. -/
def readFraction (negative : Bool) (significand : Nat) (scale : Int) (s : List Char) :
    Outcome Numeral :=
  let taken := takeDigits significand s
  if s.takeWhile Char.isDigit = [] then faultAt s
  else readTail negative taken.1 (some (scale - taken.2.1)) (dropDigits taken.2.2)

/-- Reads what follows the whole part of a numeral, with its scale if digits were dropped. -/
def readAfterWhole (negative : Bool) (significand : Nat) (scale : Option Int) (s : List Char) :
    Outcome Numeral :=
  match s with
  | '.' :: rest => readFraction negative significand (scale.getD 0) rest
  | s => readTail negative significand scale s

/-- Reads a numeral after its sign.  A zero must not be followed by a digit. -/
def readUnsigned (negative : Bool) (s : List Char) : Outcome Numeral :=
  match s with
  | [] => .error .cutShort
  | c :: rest =>
    if c = '0' then
      if (rest.takeWhile Char.isDigit).isEmpty then readAfterWhole negative 0 none rest
      else .error .malformed
    else if c.isDigit then
      let taken := takeDigits 0 (c :: rest)
      let dropped := (taken.2.2.takeWhile Char.isDigit).length
      readAfterWhole negative taken.1 (if dropped = 0 then none else some dropped)
        (dropDigits taken.2.2)
    else .error .malformed

/-- Reads a numeral. -/
def readNumeral : List Char → Outcome Numeral
  | '-' :: rest => readUnsigned true rest
  | s => readUnsigned false s

/-- Reads a number. -/
def readNumber (s : List Char) : Outcome Number :=
  match readNumeral s with
  | .error e => .error e
  | .ok (n, rest) =>
    match n.number with
    | .ok v => .ok (v, rest)
    | .error e => .error e

/-! ## Skipping

A numeral that is skipped is only checked for its form; where it is cut short it is
malformed all the same. -/

/-- Passes over a numeral. -/
def skipNumeral (s : List Char) : Except Fault (List Char) :=
  match readNumeral s with
  | .ok (_, rest) => .ok rest
  | .error _ => .error .malformed

/-! ## Reading leaves less -/

theorem length_dropDigits_le (s : List Char) : (dropDigits s).length ≤ s.length :=
  (List.dropWhile_sublist _).length_le

theorem length_takeDigits_le (n : Nat) (s : List Char) :
    (takeDigits n s).2.2.length ≤ s.length := by
  induction s generalizing n with
  | nil => simp [takeDigits]
  | cons c rest ih =>
    rw [takeDigits]
    split
    · have := ih (10 * n + Decimal.digitValue c)
      simp only [List.length_cons]
      omega
    · simp

theorem length_takeDigits_zero_lt {c : Char} (rest : List Char) (h : c.isDigit = true) :
    (takeDigits 0 (c :: rest)).2.2.length < (c :: rest).length := by
  have hv : Decimal.digitValue c < UInt64.size := by
    simp only [Char.isDigit, Bool.and_eq_true, decide_eq_true_eq] at h
    have : c.toNat ≤ 57 := h.2
    simp only [Decimal.digitValue, UInt64.size]
    omega
  rw [takeDigits, if_pos ⟨h, by omega⟩]
  have := length_takeDigits_le (10 * 0 + Decimal.digitValue c) rest
  simp only [List.length_cons]
  omega

theorem length_le_of_readExponentDigits {negative : Bool} {s rest : List Char} {e : Int}
    (h : readExponentDigits negative s = .ok (e, rest)) : rest.length ≤ s.length := by
  unfold readExponentDigits at h
  dsimp only at h
  split at h
  · simp [faultAt] at h
  · simp only [Except.ok.injEq, Prod.mk.injEq] at h
    rw [← h.2]
    exact length_dropDigits_le s

theorem length_le_of_readExponent {s rest : List Char} {e : Int}
    (h : readExponent s = .ok (e, rest)) : rest.length ≤ s.length := by
  unfold readExponent at h
  split at h
  · have := length_le_of_readExponentDigits h
    simp only [List.length_cons]
    omega
  · have := length_le_of_readExponentDigits h
    simp only [List.length_cons]
    omega
  · exact length_le_of_readExponentDigits h

theorem length_le_of_readTail {negative : Bool} {m : Nat} {scale : Option Int}
    {s rest : List Char} {n : Numeral} (h : readTail negative m scale s = .ok (n, rest)) :
    rest.length ≤ s.length := by
  unfold readTail at h
  split at h
  · cases h
    simp
  · split at h
    · split at h
      · rename_i he
        cases h
        have := length_le_of_readExponent he
        simp only [List.length_cons]
        omega
      · cases h
    · cases h
      simp

theorem length_le_of_readAfterWhole {negative : Bool} {m : Nat} {scale : Option Int}
    {s rest : List Char} {n : Numeral} (h : readAfterWhole negative m scale s = .ok (n, rest)) :
    rest.length ≤ s.length := by
  unfold readAfterWhole at h
  split at h
  · rename_i cs
    unfold readFraction at h
    dsimp only at h
    split at h
    · simp [faultAt] at h
    · have h1 := length_le_of_readTail h
      have h2 := length_dropDigits_le (takeDigits m cs).2.2
      have h3 := length_takeDigits_le m cs
      simp only [List.length_cons]
      omega
  · exact length_le_of_readTail h

theorem length_lt_of_readUnsigned {negative : Bool} {s rest : List Char} {n : Numeral}
    (h : readUnsigned negative s = .ok (n, rest)) : rest.length < s.length := by
  unfold readUnsigned at h
  split at h
  · cases h
  · split at h
    · split at h
      · have := length_le_of_readAfterWhole h
        simp only [List.length_cons]
        omega
      · cases h
    · split at h
      · rename_i c cs _ hd
        have h1 := length_le_of_readAfterWhole h
        have h2 := length_dropDigits_le (takeDigits 0 (c :: cs)).2.2
        have h3 := length_takeDigits_zero_lt cs hd
        omega
      · cases h

theorem length_lt_of_readNumeral {s rest : List Char} {n : Numeral}
    (h : readNumeral s = .ok (n, rest)) : rest.length < s.length := by
  unfold readNumeral at h
  split at h
  · have := length_lt_of_readUnsigned h
    simp only [List.length_cons]
    omega
  · exact length_lt_of_readUnsigned h

theorem length_lt_of_readNumber {s rest : List Char} {n : Number}
    (h : readNumber s = .ok (n, rest)) : rest.length < s.length := by
  unfold readNumber at h
  split at h
  · cases h
  · rename_i hn
    split at h
    · cases h
      exact length_lt_of_readNumeral hn
    · cases h

theorem length_lt_of_skipNumeral {s rest : List Char} (h : skipNumeral s = .ok rest) :
    rest.length < s.length := by
  unfold skipNumeral at h
  split at h
  · rename_i hn
    cases h
    exact length_lt_of_readNumeral hn
  · cases h

end HiddenEquation.Json
