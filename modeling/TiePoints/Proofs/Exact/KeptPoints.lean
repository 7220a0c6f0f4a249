import Mathlib.Data.Rat.Floor
import Mathlib.Order.Bounds.Basic
import TiePoints.Proofs.Exact.Window

/-!
# The points that a window keeps

The size of a window is counted in quotients of distances and spacings, rounded
and clipped.  In terms of the places of the points it is this: the window starts
at the last point at or before the origin and ends one point behind the first at
or past the extent, each as far as there are points.  A point exactly at the
origin or at the extent is one of those meant, so no quotient is rounded past it.
-/

namespace TiePoints

/-- Point `k` of the axis is among the points of the window. -/
def Window.Keeps (w : Window) (k : ℕ) : Prop := w.first ≤ k ∧ k < w.first + w.count

namespace Exact

variable {K : Type} [Field K] [LinearOrder K] [FloorRing K] [IsStrictOrderedRing K]
variable {t0 spacing extent : K} {available first : ℕ}

/-- The place of point `k`, of points a spacing apart with the first at `t0`. -/
def pointPlace (t0 spacing : K) (k : ℕ) : K := t0 + k * spacing

theorem pointPlace_nonpos_iff (hspacing : 0 < spacing) (k : ℕ) :
    pointPlace t0 spacing k ≤ 0 ↔ (k : K) ≤ -t0 / spacing := by
  rw [le_div_iff₀ hspacing, le_neg_iff_add_nonpos_left]
  exact Iff.rfl

/-- Of the points up to one, the last at or before the origin is where the floor of the quotient
stops, unless all of them are behind the origin. -/
theorem isGreatest_floor_or (hspacing : 0 < spacing) (t0 : K) (last : ℕ) :
    IsGreatest {k | k ≤ last ∧ pointPlace t0 spacing k ≤ 0} (min ⌊-t0 / spacing⌋₊ last) ∨
      (∀ k ≤ last, 0 < pointPlace t0 spacing k) ∧ min ⌊-t0 / spacing⌋₊ last = 0 := by
  rcases le_or_gt 0 (-t0 / spacing) with hindex | hindex
  · left
    constructor
    · refine ⟨Nat.min_le_right _ _, (pointPlace_nonpos_iff hspacing _).mpr ?_⟩
      exact (Nat.cast_le.mpr (Nat.min_le_left _ _)).trans (Nat.floor_le hindex)
    · rintro k ⟨hk, hplace⟩
      exact Nat.le_min.mpr ⟨Nat.le_floor ((pointPlace_nonpos_iff hspacing k).mp hplace), hk⟩
  · right
    constructor
    · intro k _
      have hk : -t0 / spacing < k := hindex.trans_le (Nat.cast_nonneg k)
      rwa [← not_le, ← pointPlace_nonpos_iff hspacing, not_le] at hk
    · rw [Nat.floor_of_nonpos hindex.le, Nat.zero_min]

theorem le_pointPlace_iff (hspacing : 0 < spacing) (first n : ℕ) :
    extent ≤ pointPlace t0 spacing (first + n) ↔
      (extent - (t0 + first * spacing)) / spacing ≤ n := by
  have hplace : pointPlace t0 spacing (first + n) = n * spacing + (t0 + first * spacing) := by
    rw [pointPlace, Nat.cast_add]
    ring
  rw [hplace, div_le_iff₀ hspacing, sub_le_iff_le_add]

/-- From a point on, the first at or past the extent is as many points on as the ceiling of the
quotient says. -/
theorem isLeast_ceil (hspacing : 0 < spacing) (first : ℕ) :
    IsLeast {k | first ≤ k ∧ extent ≤ pointPlace t0 spacing k}
      (first + ⌈(extent - (t0 + first * spacing)) / spacing⌉₊) := by
  constructor
  · exact ⟨Nat.le_add_right _ _, (le_pointPlace_iff hspacing first _).mpr (Nat.le_ceil _)⟩
  · rintro k ⟨hk, hplace⟩
    obtain ⟨n, rfl⟩ := Nat.exists_eq_add_of_le hk
    exact Nat.add_le_add_left (Nat.ceil_le.mpr ((le_pointPlace_iff hspacing first n).mp hplace)) _

/-- A window starts at the last point at or before the origin that has two points from it on, or at
the first point if there is none.  It ends with the point behind the first at or past the extent,
or with the last of all.  It keeps the points between and no others, at least two. -/
theorem covering_keeps (hspacing : 0 < spacing) (havailable : 2 ≤ available)
    (hlimit : available < Index.limit) (t0 extent : K) :
    let window := Window.covering t0 spacing extent available
    let place := pointPlace t0 spacing
    (IsGreatest {k | k ≤ available - 2 ∧ place k ≤ 0} window.first ∨
        (∀ k ≤ available - 2, 0 < place k) ∧ window.first = 0) ∧
      (∃ m, IsLeast {k | window.first ≤ k ∧ extent ≤ place k} m ∧
        window.first + window.count - 1 = min (m + 1) (available - 1) ∧
        ∀ k, window.Keeps k ↔ window.first ≤ k ∧ k ≤ m + 1 ∧ k < available) ∧
      (∀ k j, k < j → j ≤ available - 2 → place j ≤ 0 → ¬ window.Keeps k) ∧
      2 ≤ window.count := by
  intro window place
  have hfirst : window.first = min ⌊-t0 / spacing⌋₊ (available - 2) :=
    covering_first_eq t0 spacing extent hlimit
  have hstart := isGreatest_floor_or hspacing t0 (available - 2)
  rw [← hfirst] at hstart
  have htwo : 2 ≤ window.count := Window.two_le_covering_count t0 spacing extent available
  have hcount : window.count =
      min (⌈(extent - (t0 + window.first * spacing)) / spacing⌉₊ + 2)
        (available - window.first) :=
    covering_count_eq t0 spacing extent havailable hlimit
  refine ⟨hstart, ⟨_, isLeast_ceil hspacing window.first, ?_, ?_⟩, ?_, htwo⟩
  · omega
  · intro k
    unfold Window.Keeps
    omega
  · intro k j hkj hj hplace hkeeps
    rcases hstart with hgreatest | ⟨hpositive, -⟩
    · have hle : j ≤ window.first := hgreatest.2 ⟨hj, hplace⟩
      exact absurd hkeeps.1 (by omega)
    · exact (hpositive j hj).not_ge hplace

/-- A window that starts with a point on the origin and reaches a point on the extent. -/
theorem covering_keeps_points_on_borders :
    let window := Window.covering (-8 : ℚ) 4 8 8
    let place := pointPlace (-8 : ℚ) 4
    window = ⟨2, 4⟩ ∧ place 2 = 0 ∧ place 4 = 8 ∧
      (IsGreatest {k | k ≤ 6 ∧ place k ≤ 0} window.first ∨
        (∀ k ≤ 6, 0 < place k) ∧ window.first = 0) ∧
      ∃ m, IsLeast {k | window.first ≤ k ∧ 8 ≤ place k} m ∧
        window.first + window.count - 1 = min (m + 1) 7 := by
  intro window place
  obtain ⟨hstart, ⟨m, hm, hend, -⟩, -⟩ :=
    covering_keeps (show (0 : ℚ) < 4 by norm_num) (show 2 ≤ 8 by decide) (by decide) (-8) 8
  exact ⟨by decide +kernel, by decide +kernel, by decide +kernel, hstart, m, hm, hend⟩

end Exact

end TiePoints
