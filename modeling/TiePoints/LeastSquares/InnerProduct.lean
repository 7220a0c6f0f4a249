import TiePoints.Scalar

/-!
# Inner products

The products of the entries of two vectors are added in eight lanes: each lane
sums every eighth product, the lanes are joined in pairs that lie four apart,
and the products behind the last full group of eight follow one by one.  In
exact arithmetic the order is of no account; in double precision it decides the
last digit.
-/

namespace TiePoints.LeastSquares

variable {α : Type} [Scalar α]

def joinLanes (l : Vector α 8) : α :=
  Scalar.zero + (l[0] + l[4]) + (l[1] + l[5]) + (l[2] + l[6]) + (l[3] + l[7])

/-- The sum of the lanes so far and of the numbers still to be added. -/
def sumInLanes (lanes : Vector α 8) : List α → α
  | a :: b :: c :: d :: e :: f :: g :: h :: rest =>
    sumInLanes (lanes.zipWith (· + ·) #v[a, b, c, d, e, f, g, h]) rest
  | rest => rest.foldl (· + ·) (joinLanes lanes)

def dot {m : Nat} (u v : Vector α m) : α :=
  sumInLanes (Vector.replicate 8 Scalar.zero) (u.zipWith (· * ·) v).toList

end TiePoints.LeastSquares
