import HiddenEquation.Decimal.Shortest

/-!
# Written forms of a double

How the digits of `Decimal.shortest` are laid out.  A `Style` holds the decisions that
differ between formats: how ties between equally short forms go, which numbers are written
without an exponent, and whether a whole number shows its decimal point.  There are two
values of it: `Style.plain` for what a player reads and `Style.json` for the wire format.
`fixed` writes a chosen number of decimal places instead.
-/

namespace HiddenEquation.Decimal

/-- A run of zeros. -/
def zeros (n : Nat) : String := String.ofList (List.replicate n '0')

/-- Inserts a decimal point so that `places` digits stand after it. -/
def withPoint (digits : String) (places : Nat) : String :=
  let cs := digits.toList
  let padded := List.replicate (places + 1 - cs.length) '0' ++ cs
  let split := padded.length - places
  String.ofList (padded.take split) ++ "." ++ String.ofList (padded.drop split)

/-- The decisions of a format for doubles. -/
structure Style where
  /-- Which of two equally short and equally near forms is written. -/
  tie : Tie
  /-- Whether a number `d.ddd * 10 ^ e` is written without an exponent. -/
  positional : Int → Bool
  /-- What follows the digits of a whole number that is written without an exponent. -/
  wholeMark : String

namespace Style

/-- What the player reads: never an exponent, no point after a whole number, and of two
equally near forms the greater. -/
def plain : Style := ⟨.up, fun _ => true, ""⟩

/-- Numbers in JSON text: an exponent outside `10 ^ -5 … 10 ^ 15`, always a point where
there is no exponent, and of two equally near forms the one with an even last digit. -/
def json : Style := ⟨.toEven, fun e => decide (-5 ≤ e) && decide (e ≤ 15), ".0"⟩

/-- A decimal number without exponent. -/
def writePositional (st : Style) (s : Scaled) : String :=
  let digits := toString s.coefficient
  if 0 ≤ s.exponent then digits ++ zeros s.exponent.toNat ++ st.wholeMark
  else withPoint digits (-s.exponent).toNat

/-- A decimal number with one digit before the point and a signed exponent. -/
def writeExponential (s : Scaled) (e : Int) : String :=
  let digits := toString s.coefficient
  let mantissa := if digits.length ≤ 1 then digits else withPoint digits (digits.length - 1)
  let sign := if 0 ≤ e then "+" else "-"
  mantissa ++ "e" ++ sign ++ toString e.natAbs

/-- The text of a positive number or zero. -/
def writeMagnitude (st : Style) (d : Dyadic) : String :=
  let s := shortest st.tie d
  let e := s.exponent + ((toString s.coefficient).length - 1 : Nat)
  if st.positional e then st.writePositional s else writeExponential s e

/-- The text of a double.  The sign of a NaN is not written. -/
def write (st : Style) (x : Float) : String :=
  match Binary64.ofFloat x with
  | .nan => "NaN"
  | .infinite negative => if negative then "-inf" else "inf"
  | .finite negative d => (if negative then "-" else "") ++ st.writeMagnitude d

end Style

/-- A double as the player reads it. -/
def plain (x : Float) : String := Style.plain.write x

/-! ## Fixed places -/

/-- The quotient rounded to the nearest whole number, a half to the even neighbour. -/
def roundDiv (num den : Nat) : Nat :=
  let below := num / den
  let rest := num % den
  if 2 * rest < den then below
  else if den < 2 * rest then below + 1
  else if below % 2 = 0 then below
  else below + 1

/-- The rounded quotient is within half a unit. -/
theorem two_mul_roundDiv_mul_le {num den : Nat} (h : 0 < den) :
    2 * (roundDiv num den * den) ≤ 2 * num + den ∧
      2 * num ≤ 2 * (roundDiv num den * den) + den := by
  have hdiv : num / den * den + num % den = num := Nat.div_add_mod' num den
  have hlt := Nat.mod_lt num h
  unfold roundDiv
  dsimp only
  split
  · omega
  · split
    · simp only [Nat.add_mul, Nat.one_mul]; omega
    · split
      · omega
      · simp only [Nat.add_mul, Nat.one_mul]; omega

/-- A double with the given number of decimal places, rounded on its exact value. -/
def fixed (places : Nat) (x : Float) : String :=
  match Binary64.ofFloat x with
  | .nan => "NaN"
  | .infinite negative => if negative then "-inf" else "inf"
  | .finite negative d =>
    let digits := toString (roundDiv (d.num * Nat.pow 10 places) d.den)
    (if negative then "-" else "") ++ (if places = 0 then digits else withPoint digits places)

end HiddenEquation.Decimal
