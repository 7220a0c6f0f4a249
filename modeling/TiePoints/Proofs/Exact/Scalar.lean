import Mathlib.Algebra.Order.Floor.Ring
import Mathlib.Algebra.Order.Floor.Semiring
import Mathlib.Algebra.Order.Field.Basic
import TiePoints.Axis

/-!
# Exact arithmetic

The reading of the library in an ordered field with whole parts: no operation
rounds, every scalar is a number, and single precision holds all of them.  No
table of such scalars is too large to be laid out.
Positions are words as ever, so a scalar beyond them becomes the last position.
-/

namespace TiePoints.Exact

variable {K : Type} [Field K] [LinearOrder K] [FloorRing K]

/-- The nearest whole number, and at a tie the one farther from zero. -/
def nearest (x : K) : ℤ := if 0 ≤ x then ⌊x + 1 / 2⌋ else ⌈x - 1 / 2⌉

def toWhole (r : Rounding) (x : K) : Whole :=
  match r with
  | .down => .int ⌊x⌋
  | .up => .int ⌈x⌉
  | .nearest => .int (nearest x)

scoped instance (priority := low) scalar : Scalar K where
  decidableLT := inferInstance
  decidableLE := inferInstance
  ofNat := fun n => n
  isNaN := fun _ => false
  isFinite := fun _ => true
  toSingle := id
  toWhole := toWhole
  bytes := 0

@[simp] theorem ofNat_eq (n : ℕ) : (Scalar.ofNat n : K) = n := rfl

@[simp] theorem zero_eq : (Scalar.zero : K) = 0 := Nat.cast_zero

@[simp] theorem one_eq : (Scalar.one : K) = 1 := Nat.cast_one

@[simp] theorem half_eq : (Scalar.half : K) = 1 / 2 := by
  have h : (Scalar.half : K) = ((1 : ℕ) : K) / ((2 : ℕ) : K) := rfl
  rw [h, Nat.cast_one, Nat.cast_two]

@[simp] theorem isFinite_eq (x : K) : Scalar.isFinite x = true := rfl

@[simp] theorem toSingle_eq (x : K) : Scalar.toSingle x = x := rfl

theorem clamp_eq {lo hi : K} (h : lo ≤ hi) (x : K) : Scalar.clamp lo hi x = max lo (min x hi) := by
  unfold Scalar.clamp
  split_ifs with hlo hhi
  · rw [min_eq_left (hlo.le.trans h), max_eq_left hlo.le]
  · rw [min_eq_right hhi.le, max_eq_right h]
  · rw [min_eq_left (not_lt.mp hhi), max_eq_right (not_lt.mp hlo)]

theorem toIndex_int (n : ℤ) : (Whole.int n).toIndex = min n.toNat (Index.limit - 1) := by
  have hlimit : Index.limit = 18446744073709551616 := rfl
  simp only [Whole.toIndex, Whole.clamp, hlimit]
  omega

theorem floorIndex_eq (x : K) : Scalar.floorIndex x = min ⌊x⌋₊ (Index.limit - 1) := by
  rw [← Int.floor_toNat]
  exact toIndex_int _

theorem ceilIndex_eq (x : K) : Scalar.ceilIndex x = min ⌈x⌉₊ (Index.limit - 1) := by
  rw [← Int.ceil_toNat]
  exact toIndex_int _

theorem nearestIndex_eq {x : K} (h : 0 ≤ x) :
    Scalar.nearestIndex x = min ⌊x + 1 / 2⌋₊ (Index.limit - 1) := by
  have hround : toWhole .nearest x = .int ⌊x + 1 / 2⌋ := congrArg Whole.int (if_pos h)
  have hindex : Scalar.nearestIndex x = (toWhole .nearest x).toIndex := rfl
  rw [hindex, hround, toIndex_int, Int.floor_toNat]

/-! ## Lookup along an axis -/

theorem locate_eq {points : ℕ} (h : points ≤ Index.limit) (x : K) :
    Cell.locate points x =
      ⟨min ⌊clampedIndex points x⌋₊ (points - 2),
        clampedIndex points x - (min ⌊clampedIndex points x⌋₊ (points - 2) : ℕ)⟩ := by
  have horigin : min (min ⌊clampedIndex points x⌋₊ (Index.limit - 1)) (points - 2) =
      min ⌊clampedIndex points x⌋₊ (points - 2) := by omega
  simp only [Cell.locate, floorIndex_eq, horigin]
  rfl

theorem pixelCentre_eq (p : ℕ) : (pixelCentre p : K) = p + 1 / 2 := by
  rw [← half_eq]
  rfl

theorem spacing_pos_of_hasPositiveSpacing {a : Axis K} (h : a.hasPositiveSpacing) :
    0 < a.spacing := by
  obtain ⟨hpos, -⟩ := Axis.hasPositiveSpacing_iff.mp h
  rwa [zero_eq] at hpos

theorem hasPositiveSpacing_of_pos {a : Axis K} (h : 0 < a.spacing) : a.hasPositiveSpacing := by
  rw [Axis.hasPositiveSpacing_iff, zero_eq]
  exact ⟨h, rfl⟩

variable [IsStrictOrderedRing K]

theorem clampedIndex_eq (points : ℕ) (x : K) :
    clampedIndex points x = max 0 (min x ((points - 1 : ℕ) : K)) := by
  have h : clampedIndex points x = Scalar.clamp (0 : K) ((points - 1 : ℕ) : K) x := by
    unfold clampedIndex
    rw [zero_eq]
    rfl
  rw [h, clamp_eq (Nat.cast_nonneg _)]

end TiePoints.Exact
