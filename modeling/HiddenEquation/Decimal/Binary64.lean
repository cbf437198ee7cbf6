/-!
# Doubles as dyadic numbers

A finite double is an integer times a power of two.  `Binary64.ofFloat` reads sign,
significand and exponent off the 64 bits, so that everything written about a double,
its shortest decimal form, its rounding to fixed places, its whole part, is computed on
natural numbers and nothing is rounded on the way.
-/

namespace HiddenEquation.Decimal

/-- The positive number `significand * 2 ^ exponent`, or zero if the significand is zero. -/
structure Dyadic where
  significand : Nat
  exponent : Int
deriving DecidableEq, Repr

/-- What the 64 bits of a double stand for. -/
inductive Binary64 where
  | nan
  | infinite (negative : Bool)
  | finite (negative : Bool) (magnitude : Dyadic)
deriving DecidableEq, Repr

namespace Dyadic

/-- Numerator of the number as a quotient of natural numbers. -/
def num (d : Dyadic) : Nat := d.significand * Nat.pow 2 d.exponent.toNat

/-- Denominator of the number as a quotient of natural numbers, a power of two. -/
def den (d : Dyadic) : Nat := Nat.pow 2 (-d.exponent).toNat

/-- The whole part of the number. -/
def whole (d : Dyadic) : Nat := d.num / d.den

end Dyadic

namespace Binary64

/-- The least exponent, that of the subnormal numbers. -/
def minExponent : Int := -1074

/-- The significand of a power of two that is not subnormal: `2 ^ 52`. -/
def hiddenBit : Nat := 0x10000000000000

/-- Splits 64 bits into one sign bit, eleven exponent bits and 52 bits of significand. -/
def ofBits (bits : Nat) : Binary64 :=
  let negative := decide (bits / 0x8000000000000000 % 2 = 1)
  let biased := bits / hiddenBit % 0x800
  let fraction := bits % hiddenBit
  if biased = 2047 then
    if fraction = 0 then .infinite negative else .nan
  else if biased = 0 then
    .finite negative ⟨fraction, minExponent⟩
  else
    .finite negative ⟨hiddenBit + fraction, minExponent + (biased - 1 : Nat)⟩

/-- The number that a double stands for. -/
def ofFloat (x : Float) : Binary64 := ofBits x.toBits.toNat

/-- The whole part of a double, cut off at `cap`; nothing below zero and nothing for NaN. -/
def wholeUpTo (cap : Nat) : Binary64 → Nat
  | .nan => 0
  | .infinite negative => if negative then 0 else cap
  | .finite negative d => if negative then 0 else min cap d.whole

end Binary64

end HiddenEquation.Decimal
