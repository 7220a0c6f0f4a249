import Mathlib.Algebra.Order.Ring.Cast
import Mathlib.Tactic.FieldSimp
import Mathlib.Tactic.Linarith
import Mathlib.Tactic.Ring
import TiePoints.Proofs.Exact.Scalar
import TiePoints.Window

/-!
# Windows of an axis in exact arithmetic

The axis of a subset is the axis of its source with the points in front of the
window left out.  A place inside the subset has the same fractional index as
before, counted from the first point of the window, and it falls into the same
cell with the same weight: the window starts at or before it and ends, if not
with the axis itself, a whole cell behind it.
-/

namespace TiePoints.Exact

variable {K : Type} [Field K] [LinearOrder K] [FloorRing K] [IsStrictOrderedRing K]

/-! ## Cells -/

/-- Clamping to a window and to all points comes to the same for an index that lies in the
window as far as there are points outside it. -/
theorem clampedIndex_window {points first count : ℕ} {x : K} (hcount : 2 ≤ count)
    (hend : first + count ≤ points) (hlow : 0 < first → (first : K) ≤ x)
    (hhigh : first + count < points → x ≤ ((first + count - 2 : ℕ) : K)) :
    clampedIndex points x = first + clampedIndex count (x - first) := by
  have hlast : ((points - 1 : ℕ) : K) = first + (count - 1 : ℕ) ∨
      x ≤ first + ((count - 2 : ℕ) : K) ∧ (first : K) + (count - 1 : ℕ) ≤ (points - 1 : ℕ) := by
    rcases hend.eq_or_lt with heq | hlt
    · left
      rw [← Nat.cast_add]
      congr 1
      omega
    · right
      refine ⟨?_, ?_⟩
      · rw [← Nat.cast_add, ← Nat.add_sub_assoc hcount]
        exact hhigh hlt
      · rw [← Nat.cast_add, Nat.cast_le]
        omega
  have hmin : min x ((points - 1 : ℕ) : K) = first + min (x - first) ((count - 1 : ℕ) : K) := by
    rcases hlast with heq | ⟨hx, hle⟩
    · rw [heq, ← min_add_add_left, add_sub_cancel]
    · have hstep : ((count - 2 : ℕ) : K) ≤ (count - 1 : ℕ) := Nat.cast_le.mpr (by omega)
      rw [min_eq_left (by linarith), min_eq_left (by linarith), add_sub_cancel]
  rw [clampedIndex_eq, clampedIndex_eq, hmin]
  rcases Nat.eq_zero_or_pos first with rfl | hfirst
  · simp
  · -- the window starts behind the first point, so the index does not fall before it
    have hx := hlow hfirst
    have hrel : 0 ≤ min (x - first) ((count - 1 : ℕ) : K) :=
      le_min (by linarith) (Nat.cast_nonneg _)
    rw [max_eq_right hrel, max_eq_right (add_nonneg (Nat.cast_nonneg _) hrel)]

theorem locate_window {points first count : ℕ} {x : K} (hpoints : points ≤ Index.limit)
    (hcount : 2 ≤ count) (hend : first + count ≤ points) (hlow : 0 < first → (first : K) ≤ x)
    (hhigh : first + count < points → x ≤ ((first + count - 2 : ℕ) : K)) :
    Cell.locate points x =
      ⟨first + (Cell.locate count (x - first)).origin, (Cell.locate count (x - first)).weight⟩ := by
  have hclamp := clampedIndex_window hcount hend hlow hhigh
  have hnonneg : 0 ≤ clampedIndex count (x - first) := by
    rw [clampedIndex_eq]
    exact le_max_left _ _
  have hfloor : ⌊clampedIndex points x⌋₊ = ⌊clampedIndex count (x - first)⌋₊ + first := by
    rw [hclamp, add_comm]
    exact Nat.floor_add_natCast hnonneg first
  have horigin : min ⌊clampedIndex points x⌋₊ (points - 2) =
      first + min ⌊clampedIndex count (x - first)⌋₊ (count - 2) := by
    rcases hend.eq_or_lt with heq | hlt
    · omega
    · -- the index stops a cell short of the end of the window
      have hx : clampedIndex count (x - first) ≤ ((count - 2 : ℕ) : K) := by
        have hhigh' := hhigh hlt
        rw [Nat.add_sub_assoc hcount, Nat.cast_add] at hhigh'
        rw [clampedIndex_eq]
        exact max_le (Nat.cast_nonneg _) ((min_le_left _ _).trans (by linarith))
      have hstop : ⌊clampedIndex count (x - first)⌋₊ ≤ count - 2 := Nat.floor_le_of_le hx
      omega
  rw [locate_eq hpoints, locate_eq (by omega), horigin, hclamp]
  simp only [Nat.cast_add]
  congr 1
  ring

/-! ## Windows -/

section

variable {t0 spacing extent : K} {available : ℕ}

omit [IsStrictOrderedRing K] in
theorem covering_first_eq (t0 spacing extent : K) (hlimit : available < Index.limit) :
    (Window.covering t0 spacing extent available).first =
      min ⌊-t0 / spacing⌋₊ (available - 2) := by
  have hfirst : (Window.covering t0 spacing extent available).first =
      min (Scalar.floorIndex (-t0 / spacing)) (available - 2) := rfl
  rw [hfirst, floorIndex_eq]
  omega

omit [IsStrictOrderedRing K] in
theorem covering_count_eq (t0 spacing extent : K) (havailable : 2 ≤ available)
    (hlimit : available < Index.limit) :
    (Window.covering t0 spacing extent available).count =
      min (⌈(extent - (t0 + (Window.covering t0 spacing extent available).first * spacing)) /
          spacing⌉₊ + 2)
        (available - (Window.covering t0 spacing extent available).first) := by
  have hfirst := Window.covering_first_le t0 spacing extent available
  set first := (Window.covering t0 spacing extent available).first
  set rest := (extent - (t0 + first * spacing)) / spacing
  have hcount : (Window.covering t0 spacing extent available).count =
      max 2 (min (Index.addSaturating (min ⌈rest⌉₊ (Index.limit - 1)) 2) (available - first)) := by
    rw [← ceilIndex_eq]
    rfl
  rw [hcount]
  unfold Index.addSaturating
  generalize Index.limit = limit at hlimit ⊢
  omega

/-- A window that leaves points out in front starts at or before the origin. -/
theorem covering_first_le_index (hlimit : available < Index.limit)
    (h : 0 < (Window.covering t0 spacing extent available).first) :
    ((Window.covering t0 spacing extent available).first : K) ≤ -t0 / spacing := by
  have hfloor : (Window.covering t0 spacing extent available).first ≤ ⌊-t0 / spacing⌋₊ := by
    rw [covering_first_eq t0 spacing extent hlimit]
    exact Nat.min_le_left _ _
  exact (Nat.le_floor_iff' h.ne').mp hfloor

/-- A window that leaves points out at the end has a whole cell behind the extent. -/
theorem index_le_covering_end (hspacing : 0 < spacing) (havailable : 2 ≤ available)
    (hlimit : available < Index.limit)
    (h : (Window.covering t0 spacing extent available).first +
      (Window.covering t0 spacing extent available).count < available) :
    (extent - t0) / spacing ≤ (((Window.covering t0 spacing extent available).first +
      (Window.covering t0 spacing extent available).count - 2 : ℕ) : K) := by
  have hcount := covering_count_eq t0 spacing extent havailable hlimit
  set first := (Window.covering t0 spacing extent available).first
  set rest := (extent - (t0 + first * spacing)) / spacing with hrest
  have hceil : (Window.covering t0 spacing extent available).count = ⌈rest⌉₊ + 2 := by omega
  have hsplit : (extent - t0) / spacing = first + rest := by
    rw [hrest]
    field_simp
    ring
  rw [hceil, ← Nat.add_assoc, Nat.add_sub_cancel, Nat.cast_add, hsplit]
  exact add_le_add_right (Nat.le_ceil rest) _

end

/-! ## Axes of subsets -/

variable {a : Axis K} {start length step : ℕ}

omit [IsStrictOrderedRing K] in
/-- A place of the subset has the fractional index of its place in the scene of the source. -/
theorem fractionalIndex_eq (hspacing : 0 < a.spacing) (hstep : 0 < step) (u : K) :
    (u - a.subsetOffset start step) / a.subsetSpacing step =
      a.fractionalIndex (start + (u - 1 / 2) * step + 1 / 2) := by
  have hstep' : (step : K) ≠ 0 := Nat.cast_ne_zero.mpr hstep.ne'
  simp only [Axis.subsetOffset, Axis.subsetSpacing, Axis.fractionalIndex, half_eq, ofNat_eq]
  field_simp
  ring

omit [IsStrictOrderedRing K] in
theorem fractionalIndex_subset (hspacing : 0 < a.spacing) (hstep : 0 < step) (u : K) :
    (a.subset start length step).fractionalIndex u =
      a.fractionalIndex (start + (u - 1 / 2) * step + 1 / 2) -
        (a.subsetWindow start length step).first := by
  have hstep' : (step : K) ≠ 0 := Nat.cast_ne_zero.mpr hstep.ne'
  rw [← fractionalIndex_eq hspacing hstep]
  simp only [Axis.subset, Axis.fractionalIndex, Axis.subsetSpacing, ofNat_eq]
  field_simp
  ring

theorem subsetSpacing_pos (hspacing : 0 < a.spacing) (hstep : 0 < step) :
    0 < a.subsetSpacing step :=
  div_pos hspacing (Nat.cast_pos.mpr hstep)

theorem cell_subset (hpoints : 2 ≤ a.points) (hlimit : a.points < Index.limit)
    (hspacing : 0 < a.spacing) (hstep : 0 < step) (start : ℕ) {u : K} (hu : 0 ≤ u)
    (hu' : u ≤ ((length + step - 1) / step : ℕ)) :
    a.cell (start + (u - 1 / 2) * step + 1 / 2) =
      ⟨(a.subsetWindow start length step).first + ((a.subset start length step).cell u).origin,
        ((a.subset start length step).cell u).weight⟩ := by
  have hspacing' := subsetSpacing_pos hspacing hstep
  simp only [Axis.cell]
  rw [fractionalIndex_subset hspacing hstep]
  apply locate_window hlimit.le (Window.two_le_covering_count _ _ _ _)
    (Window.covering_end_le hpoints)
  · intro hfirst
    rw [← fractionalIndex_eq hspacing hstep]
    refine (covering_first_le_index hlimit hfirst).trans ?_
    gcongr
    linarith
  · intro hend
    rw [← fractionalIndex_eq hspacing hstep]
    refine le_trans ?_ (index_le_covering_end hspacing' hpoints hlimit hend)
    gcongr
    exact hu'

end TiePoints.Exact
