import TiePoints.Index

/-!
# Scalars

All quantities of the library (coordinates, spacings, samples, angles and
coefficients) have one type of scalar, and every definition is generic in it.
`Scalar` holds the arithmetic alone and asserts no law, so that a definition
read in double precision is the computation with all its roundings, and read
in an ordered field it is the textbook formula.  Functions of angles are kept
apart in `Circular`, because what they may be assumed to satisfy differs from
theorem to theorem.
-/

namespace TiePoints

/-- The arithmetic that the definitions of the library use. -/
class Scalar (α : Type) extends Add α, Sub α, Mul α, Div α, Neg α, LT α, LE α where
  decidableLT : DecidableLT α
  decidableLE : DecidableLE α
  ofNat : Nat → α
  isNaN : α → Bool
  isFinite : α → Bool
  /-- The nearest scalar that single precision can hold. -/
  toSingle : α → α
  toWhole : Rounding → α → Whole
  /-- The number of bytes that a scalar takes in a table of coefficients. -/
  bytes : Nat

namespace Scalar

variable {α : Type} [Scalar α]

instance (priority := low) (x y : α) : Decidable (x < y) := decidableLT x y

instance (priority := low) (x y : α) : Decidable (x ≤ y) := decidableLE x y

def zero : α := ofNat 0

def one : α := ofNat 1

def half : α := ofNat 1 / ofNat 2

/-- The gap between one and the next scalar in double precision. -/
def epsilon : α := ofNat 1 / ofNat (Nat.pow 2 52)

/-- Equality of values: zeros of both signs agree, and nothing equals an
undefined scalar. -/
def sameValue (x y : α) : Bool := x ≤ y && y ≤ x

/-- The member of `[lo, hi]` nearest to the scalar. -/
def clamp (lo hi x : α) : α := if x < lo then lo else if hi < x then hi else x

/-- The last position at or before the scalar. -/
def floorIndex (x : α) : Nat := (toWhole .down x).toIndex

/-- The first position at or after the scalar. -/
def ceilIndex (x : α) : Nat := (toWhole .up x).toIndex

/-- The position nearest to the scalar. -/
def nearestIndex (x : α) : Nat := (toWhole .nearest x).toIndex

end Scalar

/-- The functions of angles in radians. -/
class Circular (α : Type) where
  pi : α
  sin : α → α
  cos : α → α
  /-- The direction of the vector `(x, y)`, given as `atan2 y x`. -/
  atan2 : α → α → α

namespace Circular

variable {α : Type} [Scalar α] [Circular α]

def toRadians (degrees : α) : α := degrees * (pi / Scalar.ofNat 180)

def toDegrees (radians : α) : α := radians * (Scalar.ofNat 180 / pi)

end Circular

end TiePoints
