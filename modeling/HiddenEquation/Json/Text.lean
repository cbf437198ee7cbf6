import HiddenEquation.Json.Reader

/-!
# Strings in JSON text

Writing escapes a quote, a backslash and the control characters and nothing else; reading
takes every escape of the format.  A character beyond the first plane is escaped as two
units, a leading and a trailing surrogate, and neither may stand alone.  Where a value is
skipped its strings are only followed to their end, so there a lone surrogate passes.

* `readContent_escape` : reading takes back what writing produces.
-/

namespace HiddenEquation.Json

/-! ## Writing -/

/-- A hexadecimal digit in lower case. -/
def hexDigit (n : Nat) : Char := if n < 10 then Char.ofNat (48 + n) else Char.ofNat (87 + n)

/-- How a character is written inside a string. -/
def escape (c : Char) : List Char :=
  match c with
  | '"' => ['\\', '"']
  | '\\' => ['\\', '\\']
  | '\x08' => ['\\', 'b']
  | '\x0c' => ['\\', 'f']
  | '\n' => ['\\', 'n']
  | '\r' => ['\\', 'r']
  | '\t' => ['\\', 't']
  | c =>
    if c.toNat < 0x20 then ['\\', 'u', '0', '0', hexDigit (c.toNat / 16), hexDigit (c.toNat % 16)]
    else [c]

/-- A string in quotes. -/
def quote (s : List Char) : List Char := '"' :: (s.flatMap escape ++ ['"'])

/-! ## Reading -/

/-- The value of a hexadecimal digit. -/
def hexValue? (c : Char) : Option Nat :=
  if c.isDigit then some (c.toNat - 48)
  else if 'a' ≤ c ∧ c ≤ 'f' then some (c.toNat - 87)
  else if 'A' ≤ c ∧ c ≤ 'F' then some (c.toNat - 55)
  else none

/-- The four hexadecimal digits of an escaped unit.  With fewer than four bytes left the text
is cut short, whatever they are. -/
def readUnit : List Char → Outcome Nat
  | a :: b :: c :: d :: rest =>
    match hexValue? a, hexValue? b, hexValue? c, hexValue? d with
    | some a, some b, some c, some d => .ok (((a * 16 + b) * 16 + c) * 16 + d, rest)
    | _, _, _, _ => .error .malformed
  | s => .error (if (String.ofList s).utf8ByteSize < 4 then .cutShort else .malformed)

/-- Whether a unit opens a pair. -/
def isLeading (n : Nat) : Bool := decide (0xD800 ≤ n) && decide (n ≤ 0xDBFF)

/-- Whether a unit closes a pair. -/
def isTrailing (n : Nat) : Bool := decide (0xDC00 ≤ n) && decide (n ≤ 0xDFFF)

/-- The character that a pair of units stands for. -/
def joinUnits (leading trailing : Nat) : Char :=
  Char.ofNat (0x10000 + (leading - 0xD800) * 0x400 + (trailing - 0xDC00))

/-- Reads the second unit of a pair, which is escaped like the first. -/
def readTrailing (leading : Nat) (s : List Char) : Outcome Char :=
  match readLetters ['\\', 'u'] s with
  | .error e => .error e
  | .ok rest =>
    match readUnit rest with
    | .error e => .error e
    | .ok (n, rest) =>
      if isTrailing n then .ok (joinUnits leading n, rest) else .error .malformed

/-- Reads an escaped character after its mark `u`: one unit, or a pair of them. -/
def readUnits (s : List Char) : Outcome Char :=
  match readUnit s with
  | .error e => .error e
  | .ok (n, rest) =>
    if isTrailing n then .error .malformed
    else if isLeading n then readTrailing n rest
    else .ok (Char.ofNat n, rest)

/-- The character that a letter after a backslash stands for. -/
def simpleEscape? : Char → Option Char
  | '"' => some '"'
  | '\\' => some '\\'
  | '/' => some '/'
  | 'b' => some '\x08'
  | 'f' => some '\x0c'
  | 'n' => some '\n'
  | 'r' => some '\r'
  | 't' => some '\t'
  | _ => none

/-- Reads an escape after its backslash. -/
def readEscape : List Char → Outcome Char
  | [] => .error .cutShort
  | c :: rest =>
    if c = 'u' then readUnits rest
    else
      match simpleEscape? c with
      | some d => .ok (d, rest)
      | none => .error .malformed

/-- Passes over an escape after its backslash. -/
def skipEscape : List Char → Except Fault (List Char)
  | [] => .error .cutShort
  | c :: rest =>
    if c = 'u' then
      match readUnit rest with
      | .ok (_, rest) => .ok rest
      | .error e => .error e
    else if (simpleEscape? c).isSome then .ok rest
    else .error .malformed

theorem length_lt_of_readUnit {s rest : List Char} {n : Nat} (h : readUnit s = .ok (n, rest)) :
    rest.length < s.length := by
  match s with
  | a :: b :: c :: d :: after =>
    simp only [readUnit] at h
    split at h
    · simp only [Except.ok.injEq, Prod.mk.injEq] at h
      simp only [← h.2, List.length_cons]
      omega
    · cases h
  | [] => cases h
  | [_] => cases h
  | [_, _] => cases h
  | [_, _, _] => cases h

theorem length_lt_of_readTrailing {s rest : List Char} {n : Nat} {c : Char}
    (h : readTrailing n s = .ok (c, rest)) : rest.length < s.length := by
  unfold readTrailing at h
  split at h
  · cases h
  · rename_i hl
    split at h
    · cases h
    · rename_i hn
      split at h
      · simp only [Except.ok.injEq, Prod.mk.injEq] at h
        have h1 := length_le_of_readLetters hl
        have h2 := length_lt_of_readUnit hn
        rw [← h.2]
        omega
      · cases h

theorem length_lt_of_readUnits {s rest : List Char} {c : Char} (h : readUnits s = .ok (c, rest)) :
    rest.length < s.length := by
  unfold readUnits at h
  split at h
  · cases h
  · rename_i hn
    have h1 := length_lt_of_readUnit hn
    split at h
    · cases h
    · split at h
      · have h2 := length_lt_of_readTrailing h
        omega
      · cases h
        exact h1

theorem length_lt_of_readEscape {s rest : List Char} {c : Char} (h : readEscape s = .ok (c, rest)) :
    rest.length < s.length := by
  unfold readEscape at h
  split at h
  · cases h
  · split at h
    · have := length_lt_of_readUnits h
      simp only [List.length_cons]
      omega
    · split at h
      · cases h
        simp
      · cases h

theorem length_lt_of_skipEscape {s rest : List Char} (h : skipEscape s = .ok rest) :
    rest.length < s.length := by
  unfold skipEscape at h
  split at h
  · cases h
  · split at h
    · split at h
      · rename_i hn
        cases h
        have := length_lt_of_readUnit hn
        simp only [List.length_cons]
        omega
      · cases h
    · split at h
      · cases h
        simp
      · cases h

/-- Reads the characters of a string after its opening quote, up to and including the
closing one. -/
def readContent (s : List Char) : Outcome (List Char) :=
  match s with
  | [] => .error .cutShort
  | c :: rest =>
    if c = '"' then .ok ([], rest)
    else if c = '\\' then
      match he : readEscape rest with
      | .error e => .error e
      | .ok (d, after) =>
        have := length_lt_of_readEscape he
        match readContent after with
        | .error e => .error e
        | .ok (ds, rest) => .ok (d :: ds, rest)
    else if c.toNat < 0x20 then .error .malformed
    else
      match readContent rest with
      | .error e => .error e
      | .ok (ds, rest) => .ok (c :: ds, rest)
termination_by s.length

/-- Passes over the characters of a string after its opening quote. -/
def skipContent (s : List Char) : Except Fault (List Char) :=
  match s with
  | [] => .error .cutShort
  | c :: rest =>
    if c = '"' then .ok rest
    else if c = '\\' then
      match he : skipEscape rest with
      | .error e => .error e
      | .ok after =>
        have := length_lt_of_skipEscape he
        skipContent after
    else if c.toNat < 0x20 then .error .malformed
    else skipContent rest
termination_by s.length

theorem length_lt_of_readContent {s rest cs : List Char} (h : readContent s = .ok (cs, rest)) :
    rest.length < s.length := by
  fun_induction readContent s generalizing cs rest with
  | case2 => cases h; simp
  | case5 =>
    rename_i hmore _ ih
    cases h
    have := ih hmore
    simp only [List.length_cons]
    omega
  | case8 =>
    rename_i hmore ih
    cases h
    have := ih hmore
    simp only [List.length_cons]
    omega
  | _ => cases h

theorem length_lt_of_skipContent {s rest : List Char} (h : skipContent s = .ok rest) :
    rest.length < s.length := by
  fun_induction skipContent s with
  | case2 => cases h; simp
  | case4 =>
    rename_i ih
    have := ih h
    simp only [List.length_cons]
    omega
  | case6 =>
    rename_i ih
    have := ih h
    simp only [List.length_cons]
    omega
  | _ => cases h

/-! ## Reading what was written -/

theorem hexValue?_hexDigit {n : Nat} (h : n < 16) : hexValue? (hexDigit n) = some n := by
  have all : ∀ k : Fin 16, hexValue? (hexDigit k) = some k.val := by decide
  exact all ⟨n, h⟩

theorem readEscape_control {c : Char} (h : c.toNat < 0x20) (rest : List Char) :
    readEscape ('u' :: '0' :: '0' :: hexDigit (c.toNat / 16) :: hexDigit (c.toNat % 16) :: rest)
      = .ok (c, rest) := by
  have h0 : hexValue? '0' = some 0 := rfl
  have hn : c.toNat / 16 * 16 + c.toNat % 16 = c.toNat := Nat.div_add_mod' _ _
  simp [readEscape, readUnits, readUnit, h0, hexValue?_hexDigit (show c.toNat / 16 < 16 by omega),
    hexValue?_hexDigit (show c.toNat % 16 < 16 by omega), hn, isTrailing, isLeading,
    show ¬ 0xDC00 ≤ c.toNat by omega, show ¬ 0xD800 ≤ c.toNat by omega]

theorem readContent_of_readEscape {s after : List Char} {d : Char}
    (h : readEscape s = .ok (d, after)) :
    readContent ('\\' :: s) =
      match readContent after with
      | .error e => .error e
      | .ok (ds, rest) => .ok (d :: ds, rest) := by
  rw [readContent, if_neg (by decide), if_pos rfl]
  split
  · rename_i he
    rw [h] at he
    cases he
  · rename_i he
    rw [h] at he
    cases he
    rfl

theorem readContent_of_plain {s : List Char} {c : Char} (hq : c ≠ '"') (hb : c ≠ '\\')
    (hc : ¬ c.toNat < 0x20) :
    readContent (c :: s) =
      match readContent s with
      | .error e => .error e
      | .ok (ds, rest) => .ok (c :: ds, rest) := by
  rw [readContent, if_neg hq, if_neg hb, if_neg hc]

/-- Reading goes through the escape of one character as through the character. -/
theorem readContent_escape_append (c : Char) (s : List Char) :
    readContent (escape c ++ s) =
      match readContent s with
      | .error e => .error e
      | .ok (ds, rest) => .ok (c :: ds, rest) := by
  unfold escape
  split
  case h_8 hq hb _ _ _ _ _ =>
    split
    · rename_i hc
      exact readContent_of_readEscape (readEscape_control hc s)
    · rename_i hc
      exact readContent_of_plain hq hb hc
  all_goals exact readContent_of_readEscape rfl

/-- Reading takes back what writing produces. -/
theorem readContent_escape (s rest : List Char) :
    readContent (s.flatMap escape ++ '"' :: rest) = .ok (s, rest) := by
  induction s with
  | nil => simp [readContent]
  | cons c cs ih =>
    rw [List.flatMap_cons, List.append_assoc, readContent_escape_append, ih]

end HiddenEquation.Json
