import TiePoints.Double.Scalar
import TiePoints.LeastSquares.Basic
import TiePoints.LeastSquares.InnerProduct

/-!
# Bidiagonal form

Reflections from both sides bring a design to a form with entries on the
diagonal and above it alone.  A first reflection clears the first column below
its head; what is left of the other columns is turned over, and the same is
done to it: its first column is the first row of the design, and its bidiagonal
form read crosswise completes that of the design.
-/

namespace TiePoints

/-- The reflection in the hyperplane orthogonal to a unit vector, followed by
the change of sign that makes the cleared column point forwards. -/
structure Reflection (m : Nat) where
  axis : Vector Float m
  sign : Float

/-- A column cleared below its head: its length, which becomes the head, and
the reflection that takes it there.  A column whose length vanishes in the
arithmetic is not worth a reflection of the other columns. -/
structure Clearing (m : Nat) where
  length : Float
  reflection : Reflection m
  isWorthwhile : Bool

/-- A diagonal, the entries above it, and the directions in which they stand. -/
structure Bidiagonal (m n : Nat) where
  diagonal : List Float
  above : List Float
  left : List (Vector Float m)
  right : List (Vector Float n)

variable {m n : Nat}

def Reflection.apply (r : Reflection m) (v : Vector Float m) : Vector Float m :=
  let factor := LeastSquares.dot r.axis v * (r.sign * -2)
  r.axis.zipWith (fun a x => factor * a + r.sign * x) v

namespace Bidiagonal

def norm (v : Vector Float m) : Float := (LeastSquares.dot v v).sqrt

/-- The axis is the column with its head moved away from zero by the length of
the column, brought to length one in two steps because the first is inexact if
the column is short. -/
def clear (v : Vector Float (m + 1)) : Clearing (m + 1) :=
  let square := LeastSquares.dot v v
  let length := square.sqrt
  let head := v[0]
  let sign : Float := if 0 ≤ head then 1 else -1
  let axis := v.set 0 (head + sign * length)
  let axisSquare := (square + head.abs * length) * 2
  if axisSquare == 0 then
    { length, reflection := { axis, sign }, isWorthwhile := false }
  else
    let axis := axis.map (· / axisSquare.sqrt)
    let axisLength := norm axis
    { length, reflection := { axis := axis.map (· / axisLength), sign := -sign }
      isWorthwhile := true }

def unit : Vector Float (n + 1) := Vector.ofFn fun i => if i = 0 then 1 else 0

/-- The bidiagonal form of a design that is no wider than high.  A clearing that
is not worthwhile leaves the other columns as they are, but its axis and sign
enter the directions on the left all the same. -/
def ofDesign : {m n : Nat} → Design Float m n → Bidiagonal m n
  | 0, 0, _ => { diagonal := [], above := [], left := [], right := [] }
  | 0, _ + 1, _ => { diagonal := [], above := [], left := [], right := [unit] }
  | _ + 1, 0, _ => { diagonal := [], above := [], left := [], right := [] }
  | m + 1, n + 1, d =>
    let c := clear d[0]
    let others : Design Float (m + 1) n := d.tail
    let rest := ofDesign
      (Design.transpose (if c.isWorthwhile then others.map c.reflection.apply else others))
    { diagonal := c.length :: rest.above
      above := rest.diagonal
      left := rest.right.map c.reflection.apply
      right := unit :: rest.left.map fun v => v.insertIdx 0 0 }
  termination_by m n => m + n

end Bidiagonal

end TiePoints
