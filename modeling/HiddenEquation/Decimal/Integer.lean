/-!
# Decimal integers

Digit runs and their values, and the reading of an integer in a bounded range: an optional
sign, then digits, each checked as it is read.  The first fault in reading order is
reported, so a character that is no digit wins over a later overflow and the other way
round.

* `digitsValue_append_singleton` : a further digit multiplies by ten and adds.
-/

namespace HiddenEquation.Decimal

/-- The value of a decimal digit. -/
def digitValue (c : Char) : Nat := c.toNat - '0'.toNat

/-- The value of a run of digits, most significant first. -/
def digitsValue (s : List Char) : Nat := s.foldl (fun n c => 10 * n + digitValue c) 0

theorem digitsValue_append_singleton (s : List Char) (c : Char) :
    digitsValue (s ++ [c]) = 10 * digitsValue s + digitValue c := by
  simp [digitsValue, List.foldl_append]

/-- The double nearest to a run of digits; infinite if the run is too long for any. -/
def digitsFloat (s : List Char) : Float := Float.ofNat (digitsValue s)

/-! ## Integers in a range -/

/-- Why a text is not an integer of the range asked for. -/
inductive IntegerFault where
  | empty
  | invalidDigit
  | tooLarge
  | tooSmall
deriving DecidableEq, Repr

/-- The wording of a fault. -/
def IntegerFault.message : IntegerFault → String
  | .empty => "cannot parse integer from empty string"
  | .invalidDigit => "invalid digit found in string"
  | .tooLarge => "number too large to fit in target type"
  | .tooSmall => "number too small to fit in target type"

/-- The integers that a field admits; with `signed` a minus sign may stand in front. -/
structure IntegerRange where
  lo : Int
  hi : Int
  signed : Bool
deriving DecidableEq, Repr

namespace IntegerRange

/-- Signed integers of 64 bits. -/
def int64 : IntegerRange := ⟨-0x8000000000000000, 0x7FFFFFFFFFFFFFFF, true⟩

/-- Natural numbers of eight bits. -/
def uint8 : IntegerRange := ⟨0, 0xFF, false⟩

/-- Natural numbers of 64 bits. -/
def uint64 : IntegerRange := ⟨0, 0xFFFFFFFFFFFFFFFF, false⟩

end IntegerRange

/-- Reads digits onto the number read so far, away from zero in the direction of `negative`. -/
def readDigits (range : IntegerRange) (negative : Bool) :
    Int → List Char → Except IntegerFault Int
  | acc, [] => .ok acc
  | acc, c :: rest =>
    if c.isDigit then
      if negative then
        let next := 10 * acc - digitValue c
        if next < range.lo then .error .tooSmall else readDigits range negative next rest
      else
        let next := 10 * acc + digitValue c
        if range.hi < next then .error .tooLarge else readDigits range negative next rest
    else .error .invalidDigit

/-- Reads an integer of the given range: an optional sign, then at least one digit. -/
def readInteger (range : IntegerRange) : List Char → Except IntegerFault Int
  | [] => .error .empty
  | ['+'] => .error .invalidDigit
  | ['-'] => .error .invalidDigit
  | '+' :: digits => readDigits range false 0 digits
  | '-' :: digits =>
    if range.signed then readDigits range true 0 digits else .error .invalidDigit
  | digits => readDigits range false 0 digits

end HiddenEquation.Decimal
