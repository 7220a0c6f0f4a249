/-!
# Hypotenuses

The root of a sum of squares, each step rounded, misses the nearest double
about one time in eight.  One step of Newton's method, with the residual
`h ^ 2 - a ^ 2 - b ^ 2` written as a sum of small products, mends nearly all of
these.
-/

namespace TiePoints.Double

/-- The residual `h ^ 2 - a ^ 2 - b ^ 2` for `b ≤ a` and `h` close to the
hypotenuse, by the excess of `h` over the leg that it lies nearer to. -/
def hypotenuseResidual (h a b : Float) : Float :=
  if h ≤ 2 * b then
    let excess := h - b
    a * (2 * excess - a) + (excess - 2 * (a - b)) * excess
  else
    let excess := h - a
    2 * excess * (a - 2 * b) + ((4 * excess - b) * b + excess * excess)

/-- The hypotenuse of a right triangle with the given legs. -/
def hypotenuse (x y : Float) : Float :=
  let a := if x.abs < y.abs then y.abs else x.abs
  let b := if x.abs < y.abs then x.abs else y.abs
  let h := (a * a + b * b).sqrt
  h - hypotenuseResidual h a b / (2 * h)

end TiePoints.Double
