/-!
# Regions

A region is a rectangle of grid points or of scene pixels, read row by row.
-/

namespace TiePoints

structure Region where
  x : Nat
  y : Nat
  width : Nat
  height : Nat
  deriving DecidableEq, Repr

namespace Region

def count (r : Region) : Nat := r.width * r.height

def isEmpty (r : Region) : Bool := r.width == 0 || r.height == 0

theorem isEmpty_iff {r : Region} : r.isEmpty ↔ r.count = 0 := by
  unfold isEmpty count
  rw [Bool.or_eq_true, beq_iff_eq, beq_iff_eq, Nat.mul_eq_zero]

/-- Whether the region lies inside the rectangle of the given sides at the origin. -/
def FitsIn (r : Region) (width height : Nat) : Prop :=
  r.x + r.width ≤ width ∧ r.y + r.height ≤ height

instance (r : Region) (width height : Nat) : Decidable (r.FitsIn width height) :=
  inferInstanceAs (Decidable (_ ∧ _))

end Region

end TiePoints
