import TiePoints.Axis

/-!
# Windows of an axis

A subset of a grid covers a part of its scene, and may keep only one pixel in so
many.  Each axis is treated alone.  Of the points of an axis a window is kept:
it starts at the last point at or before the origin of the subset and ends one
point behind the first point at or past its extent, both as far as the axis
goes.  Inside the subset every coordinate then falls between the same two
points as before.
-/

namespace TiePoints

structure Window where
  first : Nat
  count : Nat
  deriving DecidableEq, Repr

variable {α : Type} [Scalar α]

/-- The points kept of `available` ones, of which point `k` is at
`t0 + k * spacing` in pixels of a subset that is `extent` pixels long. -/
def Window.covering (t0 spacing extent : α) (available : Nat) : Window :=
  let first := min (Scalar.floorIndex (-t0 / spacing)) (available - 2)
  let offset := t0 + Scalar.ofNat first * spacing
  let needed := Index.addSaturating (Scalar.ceilIndex ((extent - offset) / spacing)) 2
  { first, count := max 2 (min needed (available - first)) }

namespace Window

theorem covering_first_le (t0 spacing extent : α) (available : Nat) :
    (covering t0 spacing extent available).first ≤ available - 2 :=
  Nat.min_le_right _ _

theorem two_le_covering_count (t0 spacing extent : α) (available : Nat) :
    2 ≤ (covering t0 spacing extent available).count :=
  Nat.le_max_left _ _

/-- The window lies within the points there are. -/
theorem covering_end_le {t0 spacing extent : α} {available : Nat} (h : 2 ≤ available) :
    (covering t0 spacing extent available).first +
      (covering t0 spacing extent available).count ≤ available := by
  have hfirst := covering_first_le t0 spacing extent available
  have hcount : (covering t0 spacing extent available).count ≤
      max 2 (available - (covering t0 spacing extent available).first) :=
    Nat.max_le.2 ⟨Nat.le_max_left _ _, Nat.le_trans (Nat.min_le_right _ _) (Nat.le_max_right _ _)⟩
  omega

end Window

namespace Axis

/-- The spacing in pixels of a subset that keeps every `step`-th pixel. -/
def subsetSpacing (a : Axis α) (step : Nat) : α := a.spacing / Scalar.ofNat step

/-- The place of the first point in pixels of a subset from pixel `start` on. -/
def subsetOffset (a : Axis α) (start step : Nat) : α :=
  (a.offset - Scalar.half - Scalar.ofNat start) / Scalar.ofNat step + Scalar.half

def subsetWindow (a : Axis α) (start length step : Nat) : Window :=
  .covering (a.subsetOffset start step) (a.subsetSpacing step)
    (Scalar.ofNat ((length + step - 1) / step)) a.points

def subset (a : Axis α) (start length step : Nat) : Axis α :=
  let window := a.subsetWindow start length step
  { points := window.count
    offset := a.subsetOffset start step + Scalar.ofNat window.first * a.subsetSpacing step
    spacing := a.subsetSpacing step }

end Axis

end TiePoints
