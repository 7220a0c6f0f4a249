import TiePoints.Double.Hypotenuse
import TiePoints.Double.Scalar

/-!
# Plane rotations

A rotation of the plane by its cosine and sine, the rotations that bring a
vector onto an axis, and the two rotations that make an upper triangular matrix
of two rows diagonal.
-/

namespace TiePoints

structure Rotation where
  cosine : Float
  sine : Float

namespace Rotation

def identity : Rotation := { cosine := 1, sine := 0 }

def inverse (r : Rotation) : Rotation := { r with sine := -r.sine }

def turn (r : Rotation) (x y : Float) : Float × Float :=
  (r.cosine * x - r.sine * y, r.sine * x + r.cosine * y)

/-- Turns two vectors into each other, entry by entry. -/
def turnVectors {m : Nat} (r : Rotation) (u v : Vector Float m) :
    Vector Float m × Vector Float m :=
  (u.zipWith (fun x y => (r.turn x y).1) v, u.zipWith (fun x y => (r.turn x y).2) v)

def direction (x : Float) : Float := if 0 ≤ x then 1 else -1

/-- The rotation that takes `(x, y)` to the first axis, with the place where it
gets to, unless it is there. -/
def ontoFirst (x y : Float) : Option (Rotation × Float) :=
  if y == 0 then none
  else
    let length := (x * x + y * y).sqrt
    some ({ cosine := x.abs / length, sine := -direction x * (y / length) }, direction x * length)

/-- The rotation that takes `(x, y)` to the second axis, with the place where
it gets to, unless it is there. -/
def ontoSecond (x y : Float) : Option (Rotation × Float) :=
  if x == 0 then none
  else
    let length := (y * y + x * x).sqrt
    some ({ cosine := y.abs / length, sine := x * direction y / length }, direction y * length)

/-- The rotation whose cosine and sine are in the ratio of `x` and `y`, with
what they were divided by. -/
def along (x y : Float) : Rotation × Float :=
  let length := (x * x + y * y).sqrt
  if 0 < length then
    let signed := direction x * length
    ({ cosine := x.abs / length, sine := y / signed }, signed)
  else (identity, 0)

/-- The diagonal form of a matrix with rows `(a, b)` and `(0, d)`: its entries
and the rotations on the left and on the right. -/
structure Diagonalized where
  left : Rotation
  first : Float
  second : Float
  right : Rotation

/-- The singular values are half the sum and half the difference of the lengths
of `(a + d, b)` and `(a - d, b)`, the smaller one written as a quotient so that
nothing cancels.  The right rotation is read off the first value, the left one
off the image of its axis.  The lengths of both are divided out of the values
one after the other. -/
def diagonalize (a b d : Float) : Diagonalized :=
  let sum := Double.hypotenuse (a + d) b + Double.hypotenuse (a - d) b
  let smaller := a * d * 2 / sum
  let larger := sum / 2
  let (right, scale) := along (a * b) (smaller * smaller - a * a)
  let smaller := smaller * scale
  let larger := larger * scale
  let (left, scale) := along ((a * right.cosine + b * right.sine) / smaller)
    (d * right.sine / smaller)
  { left, first := smaller * scale, second := larger * scale, right }

end Rotation

end TiePoints
