import TiePoints.Error

/-!
# Axes of a grid

The tie points of a grid stand at regular intervals along two axes, and each
axis is treated alone: where its points lie, which cell a coordinate falls
into, and how long the scene is that the points span.  A coordinate is first
turned into a fractional point index.  Bilinear lookup clamps that index into
the grid and splits it into the first point of a cell and a weight; row
selection takes the last point at or before it.
-/

namespace TiePoints

structure Axis (α : Type) where
  points : Nat
  /-- The scene coordinate of the first point. -/
  offset : α
  /-- The number of scene pixels from one point to the next. -/
  spacing : α
  deriving DecidableEq, Repr

/-- Two neighbouring points, the first of them `origin`, and a place between
them: weight zero is the first point and weight one the second. -/
structure Cell (α : Type) where
  origin : Nat
  weight : α
  deriving DecidableEq, Repr

variable {α : Type} [Scalar α]

/-- The fractional index clamped into `[0, points - 1]`; zero if undefined. -/
def clampedIndex (points : Nat) (index : α) : α :=
  if Scalar.isNaN index then Scalar.zero
  else Scalar.clamp Scalar.zero (Scalar.ofNat (points - 1)) index

/-- The cell of a fractional index among `points` points.  No cell starts at
the last point: the end of the grid has weight one in the cell before it. -/
def Cell.locate (points : Nat) (index : α) : Cell α :=
  let index := clampedIndex points index
  let origin := min (Scalar.floorIndex index) (points - 2)
  { origin, weight := index - Scalar.ofNat origin }

theorem Cell.locate_origin_le (points : Nat) (index : α) :
    (Cell.locate points index).origin ≤ points - 2 :=
  Nat.min_le_right _ _

namespace Axis

/-- The number of scene pixels that the points span, first and last included. -/
def sceneLength (a : Axis α) : Nat :=
  Scalar.nearestIndex (Scalar.ofNat (a.points - 1) * a.spacing + Scalar.one)

def position (a : Axis α) (i : Nat) : α := a.offset + Scalar.ofNat i * a.spacing

def fractionalIndex (a : Axis α) (s : α) : α := (s - a.offset) / a.spacing

def cell (a : Axis α) (s : α) : Cell α := Cell.locate a.points (a.fractionalIndex s)

/-- The last point at or before the coordinate, clamped into the grid. -/
def pointBefore (a : Axis α) (s : α) : Nat :=
  min (Scalar.floorIndex (a.fractionalIndex s)) (a.points - 1)

/-- Whether the spacing puts the points in increasing order. -/
def hasPositiveSpacing (a : Axis α) : Bool :=
  Scalar.zero < a.spacing && Scalar.isFinite a.spacing

theorem hasPositiveSpacing_iff {a : Axis α} :
    a.hasPositiveSpacing ↔ Scalar.zero < a.spacing ∧ Scalar.isFinite a.spacing := by
  rw [hasPositiveSpacing, Bool.and_eq_true, decide_eq_true_iff]

theorem cell_origin_add_one_lt {a : Axis α} (h : 2 ≤ a.points) (s : α) :
    (a.cell s).origin + 1 < a.points := by
  have := Cell.locate_origin_le a.points (a.fractionalIndex s)
  unfold cell
  omega

theorem pointBefore_lt {a : Axis α} (h : 0 < a.points) (s : α) :
    a.pointBefore s < a.points := by
  have : a.pointBefore s ≤ a.points - 1 := Nat.min_le_right _ _
  omega

end Axis

def pixelCentre (p : Nat) : α := Scalar.ofNat p + Scalar.half

end TiePoints
