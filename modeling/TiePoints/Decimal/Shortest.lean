/-!
# Shortest decimals

Every real number in a certain interval around a double rounds to that double.
The shortest decimal of the double is a member of the coarsest decimal grid
that meets the interval, and of two members of that grid the one nearer to the
double.  At a tie the larger one is taken.

A double is given as `m * 2 ^ e` in the canonical form of its format.  Then the
interval reaches half a unit of the last place to both sides, save that below a
power of two it reaches a quarter; its ends belong to it iff `m` is even.
-/

namespace TiePoints.Decimal

/-- The decimal `digits * 10 ^ exponent`. -/
structure Scientific where
  digits : Nat
  exponent : Int
  deriving DecidableEq, Repr

/-- The numbers that round to one double, and the double itself, over a common
denominator. -/
structure Interval where
  lower : Nat
  value : Nat
  upper : Nat
  denominator : Nat
  closed : Bool
  deriving DecidableEq, Repr

/-- The least exponent of a double in canonical form. -/
def leastExponent : Int := -1074

def Interval.around (m : Nat) (e : Int) : Interval :=
  let scale := Nat.pow 2 (e - 2).toNat
  let belowPower := m = Nat.pow 2 52 ∧ leastExponent < e
  { lower := (4 * m - if belowPower then 1 else 2) * scale
    value := 4 * m * scale
    upper := (4 * m + 2) * scale
    denominator := Nat.pow 2 (2 - e).toNat
    closed := m % 2 = 0 }

namespace Interval

/-- Whether `k / denominator` rounds to the double. -/
def contains (i : Interval) (k : Nat) : Bool :=
  if i.closed then i.lower ≤ k && k ≤ i.upper else i.lower < k && k < i.upper

/-- The interval measured in units of `10 ^ p`. -/
def inUnits (i : Interval) (p : Int) : Interval :=
  let up := Nat.pow 10 (-p).toNat
  { lower := i.lower * up
    value := i.value * up
    upper := i.upper * up
    denominator := i.denominator * Nat.pow 10 p.toNat
    closed := i.closed }

/-- The whole number in the interval that is nearest to the double, if the
interval holds a whole number. -/
def nearestWhole? (i : Interval) : Option Nat :=
  let below := i.value / i.denominator
  let above := below + 1
  let hasBelow := i.contains (below * i.denominator)
  let hasAbove := i.contains (above * i.denominator)
  if hasBelow && hasAbove then
    some (if i.value - below * i.denominator < above * i.denominator - i.value then below
      else above)
  else if hasBelow then some below
  else if hasAbove then some above
  else none

/-- The first hit on the grids of spacing `10 ^ p`, `10 ^ (p - 1)`, and so on. -/
def search (i : Interval) (p : Int) : Nat → Option Scientific
  | 0 => none
  | tries + 1 =>
    match (i.inUnits p).nearestWhole? with
    | some d => some ⟨d, p⟩
    | none => i.search (p - 1) tries

end Interval

/-- The coarsest grid that a double of this size can meet: `2 ^ (log₂ m + e + 1)`
exceeds the double, and ten exceeds two. -/
def coarsestExponent (m : Nat) (e : Int) : Int :=
  let top : Int := m.log2 + 1 + e
  if 0 ≤ top then (top + 2) / 3 else top / 4 + 1

/-- The shortest decimal of the double `m * 2 ^ e`. -/
def shortest (m : Nat) (e : Int) : Scientific :=
  let start := coarsestExponent m e
  let tries := (start - leastExponent).toNat + 1
  ((Interval.around m e).search start tries).getD ⟨m, e⟩

end TiePoints.Decimal
