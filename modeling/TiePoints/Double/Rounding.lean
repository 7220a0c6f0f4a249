import TiePoints.Whole

/-!
# Rounding doubles to whole numbers

A finite double is `± m * 2 ^ e` with whole `m` and `e`.  Its rounding is taken
on that form in exact integer arithmetic, so no intermediate result is rounded
and the range of the answer is unbounded.
-/

namespace TiePoints.Double

open Float.Model

/-- The number `n * 2 ^ e` rounded to a whole number. -/
def wholeOfScaled (r : Rounding) (n e : Int) : Int :=
  if 0 ≤ e then n * (Nat.pow 2 e.toNat : Nat) else r.quotient n (Nat.pow 2 (-e).toNat)

def toWhole (r : Rounding) (x : Float) : Whole :=
  match x.toModel.unpack with
  | .notANumber => .undefined
  | .infinity .positive => .posInf
  | .infinity .negative => .negInf
  | .zero _ => .int 0
  | .finite s m e _ => .int (wholeOfScaled r (s.apply m) e)

end TiePoints.Double
