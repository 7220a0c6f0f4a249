import TiePoints.Scalar

/-!
# Pixel formats

Interpolated values are scalars, and a block of them can be asked for in
another format.  Formats of real numbers take the value as it is, at most in
single precision; formats of integers take the nearest integer, a tie going
away from zero, and stop at their bounds.
-/

namespace TiePoints

inductive PixelFormat
  | double
  | single
  | int32
  | int16
  | uint16
  | uint8
  deriving DecidableEq, Repr

inductive Pixel (α : Type)
  | real (value : α)
  | whole (value : Int)
  deriving DecidableEq, Repr

namespace PixelFormat

def all : List PixelFormat := [double, single, int32, int16, uint16, uint8]

theorem mem_all (f : PixelFormat) : f ∈ all := by cases f <;> decide

/-- The least and the greatest integer of a format of integers. -/
def bounds? : PixelFormat → Option (Int × Int)
  | double => none
  | single => none
  | int32 => some (-2147483648, 2147483647)
  | int16 => some (-32768, 32767)
  | uint16 => some (0, 65535)
  | uint8 => some (0, 255)

variable {α : Type} [Scalar α]

/-- The nearest integer if it lies within the bounds, otherwise the bound on
its side. -/
def toInteger (lo hi : Int) (v : α) : Int :=
  if Scalar.isNaN v then 0
  else
    let w := Scalar.toWhole .nearest v
    (w.within? lo hi).getD (if w.isNegative then lo else hi)

def ofValue (f : PixelFormat) (v : α) : Pixel α :=
  match f.bounds? with
  | some (lo, hi) => .whole (toInteger lo hi v)
  | none => .real (if f = single then Scalar.toSingle v else v)

/-- The nearest 32-bit integer, a tie going away from zero. -/
def roundToInt32 (v : α) : Int :=
  (Scalar.toWhole .nearest v).clamp (-2147483648) 2147483647

end PixelFormat

end TiePoints
