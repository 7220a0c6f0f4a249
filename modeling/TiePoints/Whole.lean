/-!
# Rounding to whole numbers

Quantities become whole numbers in two steps.  First a quantity is rounded in
one of three directions; the result is a `Whole`, an integer of any size, or
one of the two infinities, or undefined.  Then the result is brought into the
range that its use allows.  Keeping the steps apart means that no rounding
depends on the width of the range behind it.
-/

namespace TiePoints

/-- Which whole number a quantity between two of them becomes. -/
inductive Rounding
  | down
  | up
  /-- The nearer of the two, and at a tie the one farther from zero. -/
  | nearest
  deriving DecidableEq, Repr

def Rounding.quotient (n : Int) (d : Nat) : Rounding → Int
  | .down => n / d
  | .up => -(-n / d)
  | .nearest => n.sign * ((2 * n.natAbs + d) / (2 * d) : Nat)

inductive Whole
  | int (n : Int)
  | posInf
  | negInf
  | undefined
  deriving DecidableEq, Repr

namespace Whole

/-- The member of `[lo, hi]` nearest to the number; zero if it is undefined. -/
def clamp (lo hi : Int) : Whole → Int
  | int n => max lo (min n hi)
  | posInf => hi
  | negInf => lo
  | undefined => 0

/-- The number itself, if it lies in `[lo, hi]`. -/
def within? (lo hi : Int) : Whole → Option Int
  | int n => if lo ≤ n ∧ n ≤ hi then some n else none
  | posInf => none
  | negInf => none
  | undefined => none

def isNegative : Whole → Bool
  | int n => n < 0
  | posInf => false
  | negInf => true
  | undefined => false

theorem clamp_mem {lo hi : Int} (hlo : lo ≤ 0) (hhi : 0 ≤ hi) (w : Whole) :
    lo ≤ w.clamp lo hi ∧ w.clamp lo hi ≤ hi := by
  cases w <;> simp only [clamp] <;> omega

end Whole

end TiePoints
