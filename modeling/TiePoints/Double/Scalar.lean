import TiePoints.Double.Rounding
import TiePoints.Double.Single
import TiePoints.Scalar

/-!
# Double precision as a scalar type

The reading of the library that is run: quantities are doubles, sums, products
and quotients are rounded after each operation, and functions of angles are
those of the platform.
-/

namespace TiePoints

instance : Scalar Float where
  decidableLT := fun x y => Float.decLt x y
  decidableLE := fun x y => Float.decLe x y
  ofNat := fun n => .ofModel (.ofNat n)
  isNaN := Float.isNaN
  isFinite := Float.isFinite
  toSingle := Double.toSingle
  toWhole := Double.toWhole
  bytes := 8

instance : Circular Float where
  pi := Float.ofBits 0x400921fb54442d18
  sin := Float.sin
  cos := Float.cos
  atan2 := Float.atan2

end TiePoints
