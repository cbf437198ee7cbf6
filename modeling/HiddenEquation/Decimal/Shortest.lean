import HiddenEquation.Decimal.Binary64

/-!
# Shortest decimal digits

The decimal number with the fewest digits among those that read back to a given double,
and the nearest of them to the double where several have as few.

A double stands for every real number nearer to it than to its neighbours: an interval
whose ends belong to it exactly when the significand is even.  The grid of the multiples
of `10 ^ p` gets finer as `p` falls, and if any point of a grid lies in the interval then
so does one of the two points next to the double itself.  So the search walks from a
coarse grid to finer ones and stops at the first with a point inside; there the number of
digits is least.  All comparisons are between natural numbers.
-/

namespace HiddenEquation.Decimal

/-- Which of two equally near candidates is taken. -/
inductive Tie where
  | up
  | toEven
deriving DecidableEq, Repr

/-- The number `coefficient * 10 ^ exponent`. -/
structure Scaled where
  coefficient : Nat
  exponent : Int
deriving DecidableEq, Repr

/-- The reals that round to a double, as quotients of natural numbers over one denominator. -/
structure RoundingInterval where
  lower : Nat
  centre : Nat
  upper : Nat
  den : Nat
  closed : Bool
deriving DecidableEq, Repr

namespace RoundingInterval

/-- The interval of a double, in units of a quarter of its last place.  Below a power of two
the neighbour is half as far away as above it, except at the least exponent. -/
def ofDyadic (d : Dyadic) : RoundingInterval :=
  let narrow := decide (d.significand = Binary64.hiddenBit ∧ d.exponent ≠ Binary64.minExponent)
  let scale := Nat.pow 2 (d.exponent - 2).toNat
  { lower := (4 * d.significand - if narrow then 1 else 2) * scale
    centre := 4 * d.significand * scale
    upper := (4 * d.significand + 2) * scale
    den := Nat.pow 2 (2 - d.exponent).toNat
    closed := d.significand % 2 == 0 }

/-- The same interval measured in units of `10 ^ p`. -/
def inUnits (i : RoundingInterval) (p : Int) : RoundingInterval :=
  let up := Nat.pow 10 (-p).toNat
  { i with
    lower := i.lower * up
    centre := i.centre * up
    upper := i.upper * up
    den := i.den * Nat.pow 10 p.toNat }

/-- Whether the whole number `n` lies in the interval. -/
def holds (i : RoundingInterval) (n : Nat) : Bool :=
  if i.closed then decide (i.lower ≤ n * i.den) && decide (n * i.den ≤ i.upper)
  else decide (i.lower < n * i.den) && decide (n * i.den < i.upper)

/-- The whole number in the interval that is nearest to its centre, if there is any: one of
the two neighbours of the centre. -/
def nearest? (tie : Tie) (i : RoundingInterval) : Option Nat :=
  let below := i.centre / i.den
  match i.holds below, i.holds (below + 1) with
  | false, false => none
  | true, false => some below
  | false, true => some (below + 1)
  | true, true =>
    let twice := 2 * i.centre
    let middle := (2 * below + 1) * i.den
    if twice < middle then some below
    else if middle < twice then some (below + 1)
    else
      match tie with
      | .up => some (below + 1)
      | .toEven => some (if below % 2 = 0 then below else below + 1)

/-- The point found on the coarsest of the grids `10 ^ p`, `10 ^ (p - 1)`, …, of which
`grids + 1` are tried. -/
def coarsest (tie : Tie) (i : RoundingInterval) : Nat → Int → Scaled
  | 0, p => ⟨(i.inUnits p).centre / (i.inUnits p).den, p⟩
  | grids + 1, p =>
    match (i.inUnits p).nearest? tie with
    | some n => ⟨n, p⟩
    | none => coarsest tie i grids (p - 1)

theorem holds_of_nearest? {tie : Tie} {i : RoundingInterval} {n : Nat}
    (h : i.nearest? tie = some n) : i.holds n = true := by
  unfold nearest? at h
  split at h <;> grind

end RoundingInterval

/-- An exponent of ten above which no multiple of a power of ten lies near the number:
`30103 / 100000` is just above the decimal logarithm of two. -/
def Dyadic.decimalCeiling (d : Dyadic) : Int :=
  (d.significand.log2 + d.exponent + 1) * 30103 / 100000 + 1

/-- The shortest decimal number that reads back to a positive double.  Seventeen digits tell
all doubles apart, and the first grid is at most three powers of ten too coarse for one. -/
def shortest (tie : Tie) (d : Dyadic) : Scaled :=
  if d.significand = 0 then ⟨0, 0⟩
  else (RoundingInterval.ofDyadic d).coarsest tie 24 d.decimalCeiling

end HiddenEquation.Decimal
