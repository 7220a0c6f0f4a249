import Mathlib.Tactic.Linarith
import Mathlib.Tactic.Ring
import TiePoints.Proofs.Exact.Scalar
import TiePoints.Proofs.Grid.Nodes

/-!
# Cells in exact arithmetic

The fractional index of a coordinate is held between the first point and the
last, and the cell that is looked up spans the held index.  Both weights of a
mixture therefore lie in the unit interval, and the mixture is a mean of the
four corners: it keeps the bounds of theirs, and mixing commutes with linear
maps.
-/

namespace TiePoints

/-- The values of the four tie points around the cell of a place. -/
def Grid.corners {α : Type} [Scalar α] (g : Grid α) (x y : α) : List α :=
  let i := (g.geometry.x.cell x).origin
  let j := (g.geometry.y.cell y).origin
  [g.node i j, g.node (i + 1) j, g.node i (j + 1), g.node (i + 1) (j + 1)]

/-- Two points along each axis make one cell. -/
theorem Grid.corners_of_one_cell {α : Type} [Scalar α] {g : Grid α} (hwidth : g.width = 2)
    (hheight : g.height = 2) (x y : α) :
    g.corners x y = [g.node 0 0, g.node 1 0, g.node 0 1, g.node 1 1] := by
  have hcolumn : (g.geometry.x.cell x).origin = 0 :=
    Nat.le_zero.mp ((Cell.locate_origin_le _ _).trans (Nat.sub_eq_zero_of_le hwidth.le).le)
  have hrow : (g.geometry.y.cell y).origin = 0 :=
    Nat.le_zero.mp ((Cell.locate_origin_le _ _).trans (Nat.sub_eq_zero_of_le hheight.le).le)
  simp only [corners, hcolumn, hrow, Nat.zero_add]

namespace Exact

variable {K : Type} [Field K] [LinearOrder K] [FloorRing K]

/-! ## Lookup -/

theorem position_eq (a : Axis K) (i : ℕ) : a.position i = a.offset + i * a.spacing := rfl

/-- The fractional index of a coordinate, held between the first and the last point. -/
def heldIndex (a : Axis K) (s : K) : K :=
  max 0 (min ((s - a.offset) / a.spacing) (a.points - 1))

variable [IsStrictOrderedRing K]

section Lookup

variable {a : Axis K} (hpoints : 2 ≤ a.points)

include hpoints

theorem clampedIndex_fractionalIndex (s : K) :
    clampedIndex a.points (a.fractionalIndex s) = heldIndex a s := by
  have hlast : ((a.points - 1 : ℕ) : K) = a.points - 1 := by
    rw [Nat.cast_sub (by omega), Nat.cast_one]
  rw [clampedIndex_eq, hlast]
  rfl

theorem heldIndex_mem (s : K) : heldIndex a s ∈ Set.Icc 0 ((a.points : K) - 1) := by
  have hone : (1 : K) ≤ a.points := Nat.one_le_cast.mpr (by omega)
  exact ⟨le_max_left _ _, max_le (by linarith) (min_le_right _ _)⟩

variable (hlimit : a.points < Index.limit)

include hlimit

theorem cell_weight (s : K) : (a.cell s).weight = heldIndex a s - (a.cell s).origin := by
  rw [Axis.cell, locate_eq hlimit.le, clampedIndex_fractionalIndex hpoints]

/-- The held index lies in the cell, also at the last point. -/
theorem heldIndex_mem_cell (s : K) :
    heldIndex a s ∈ Set.Icc ((a.cell s).origin : K) ((a.cell s).origin + 1) := by
  obtain ⟨hlow, hhigh⟩ := heldIndex_mem hpoints s
  have horigin : (a.cell s).origin = min ⌊heldIndex a s⌋₊ (a.points - 2) := by
    rw [Axis.cell, locate_eq hlimit.le, clampedIndex_fractionalIndex hpoints]
  have hfloor : ((a.cell s).origin : K) ≤ ⌊heldIndex a s⌋₊ :=
    Nat.cast_le.mpr (horigin ▸ min_le_left _ _)
  refine ⟨hfloor.trans (Nat.floor_le hlow), ?_⟩
  rcases le_total ⌊heldIndex a s⌋₊ (a.points - 2) with hinner | hlast
  · rw [horigin, min_eq_left hinner]
    exact (Nat.lt_floor_add_one _).le
  · -- the origin has been pulled back from the last point
    rw [horigin, min_eq_right hlast, Nat.cast_sub hpoints, Nat.cast_two]
    linarith

theorem cell_weight_mem (s : K) : (a.cell s).weight ∈ Set.Icc (0 : K) 1 := by
  obtain ⟨hlow, hhigh⟩ := heldIndex_mem_cell hpoints hlimit s
  rw [cell_weight hpoints hlimit]
  constructor <;> linarith

end Lookup

section Points

variable {a : Axis K} (hspacing : 0 < a.spacing) {i : ℕ} (hi : i < a.points)

include hspacing hi

theorem heldIndex_position : heldIndex a (a.position i) = i := by
  have hindex : (a.position i - a.offset) / a.spacing = i := by
    rw [position_eq, add_sub_cancel_left, mul_div_cancel_right₀ _ hspacing.ne']
  have hlast : (i : K) ≤ a.points - 1 := by
    have hle : (i : K) + 1 ≤ a.points := by exact_mod_cast hi
    linarith
  rw [heldIndex, hindex, min_eq_left hlast, max_eq_right (Nat.cast_nonneg i)]

/-- A tie point is the first of its cell, or the second where no cell starts at it. -/
theorem cell_position (hpoints : 2 ≤ a.points) (hlimit : a.points < Index.limit) :
    (a.cell (a.position i)).origin = i ∧ (a.cell (a.position i)).weight = 0 ∨
      (a.cell (a.position i)).origin + 1 = i ∧ (a.cell (a.position i)).weight = 1 := by
  have hweight := cell_weight hpoints hlimit (a.position i)
  obtain ⟨hlow, hhigh⟩ := heldIndex_mem_cell hpoints hlimit (a.position i)
  rw [heldIndex_position hspacing hi] at hweight hlow hhigh
  have hle : (a.cell (a.position i)).origin ≤ i := by exact_mod_cast hlow
  have hge : i ≤ (a.cell (a.position i)).origin + 1 := by exact_mod_cast hhigh
  rcases hle.eq_or_lt with hfirst | hlt
  · exact .inl ⟨hfirst, by rw [hweight, hfirst, sub_self]⟩
  · have hsecond : (a.cell (a.position i)).origin + 1 = i := by omega
    have hcast : (i : K) = (a.cell (a.position i)).origin + 1 := by exact_mod_cast hsecond.symm
    exact .inr ⟨hsecond, by linarith⟩

end Points

/-! ## Mixtures -/

section Mixtures

variable {wx wy : K}

omit [IsStrictOrderedRing K] in
theorem mix_eq (wx wy v00 v10 v01 v11 : K) :
    mix wx wy v00 v10 v01 v11 =
      (v00 * (1 - wx) + v10 * wx) * (1 - wy) + (v01 * (1 - wx) + v11 * wx) * wy := by
  unfold mix
  ring

omit [IsStrictOrderedRing K] in
theorem mix_linear (p q wx wy u00 u10 u01 u11 v00 v10 v01 v11 : K) :
    p * mix wx wy u00 u10 u01 u11 + q * mix wx wy v00 v10 v01 v11 =
      mix wx wy (p * u00 + q * v00) (p * u10 + q * v10) (p * u01 + q * v01)
        (p * u11 + q * v11) := by
  simp only [mix_eq]
  ring

theorem le_mix {lo v00 v10 v01 v11 : K} (hwx : wx ∈ Set.Icc 0 1) (hwy : wy ∈ Set.Icc 0 1)
    (h00 : lo ≤ v00) (h10 : lo ≤ v10) (h01 : lo ≤ v01) (h11 : lo ≤ v11) :
    lo ≤ mix wx wy v00 v10 v01 v11 := by
  have hmean : ∀ {w u v : K}, w ∈ Set.Icc 0 1 → lo ≤ u → lo ≤ v → lo ≤ u * (1 - w) + v * w := by
    intro w u v ⟨h0, h1⟩ hu hv
    calc lo = lo * (1 - w) + lo * w := by ring
      _ ≤ u * (1 - w) + v * w :=
        add_le_add (mul_le_mul_of_nonneg_right hu (by linarith))
          (mul_le_mul_of_nonneg_right hv h0)
  rw [mix_eq]
  exact hmean hwy (hmean hwx h00 h10) (hmean hwx h01 h11)

/-- A mixture lies between any bounds of its corners. -/
theorem mix_mem_Icc {lo hi v00 v10 v01 v11 : K} (hwx : wx ∈ Set.Icc 0 1) (hwy : wy ∈ Set.Icc 0 1)
    (h00 : v00 ∈ Set.Icc lo hi) (h10 : v10 ∈ Set.Icc lo hi) (h01 : v01 ∈ Set.Icc lo hi)
    (h11 : v11 ∈ Set.Icc lo hi) : mix wx wy v00 v10 v01 v11 ∈ Set.Icc lo hi := by
  have hneg : mix wx wy (-v00) (-v10) (-v01) (-v11) = -mix wx wy v00 v10 v01 v11 := by
    simp only [mix_eq]
    ring
  have hhigh := le_mix hwx hwy (neg_le_neg h00.2) (neg_le_neg h10.2) (neg_le_neg h01.2)
    (neg_le_neg h11.2)
  rw [hneg, neg_le_neg_iff] at hhigh
  exact ⟨le_mix hwx hwy h00.1 h10.1 h01.1 h11.1, hhigh⟩

theorem mix_mem_Icc_corners (hwx : wx ∈ Set.Icc 0 1) (hwy : wy ∈ Set.Icc 0 1)
    (v00 v10 v01 v11 : K) : mix wx wy v00 v10 v01 v11 ∈
      Set.Icc (min (min v00 v10) (min v01 v11)) (max (max v00 v10) (max v01 v11)) := by
  apply mix_mem_Icc hwx hwy <;> constructor <;> simp

end Mixtures

end Exact

end TiePoints
