import Mathlib.Algebra.BigOperators.Ring.Finset
import Mathlib.Data.Rat.Floor
import TiePoints.Proofs.Block.PointQueries
import TiePoints.Proofs.Exact.Cell

/-!
# Bilinear values as sums of hats

The hat of a tie point is one at the point and falls to zero at its neighbours.
A plain grid answers at every place with the sum of all its samples, each
weighted by the hats of its column and its row at the held index of the place.
At most two hats along an axis are not zero, those at the ends of a cell that
holds the index, so the sum is the mixture over any such cell and it does not
matter which of two neighbouring cells is looked up on their common border.
-/

namespace TiePoints.Exact

variable {K : Type} [Field K] [LinearOrder K]

/-! ## Hats along an axis -/

/-- The hat of point `i`: one at the point, zero from its neighbours on, and linear between. -/
def hat (i : ℕ) (f : K) : K := max 0 (1 - |f - i|)

/-- The sum of all samples, weighted by the hats of their columns and rows. -/
def hatSum [FloorRing K] (g : Grid K) (fi fj : K) : K :=
  ∑ i ∈ Finset.range g.width, ∑ j ∈ Finset.range g.height, g.node i j * hat i fi * hat j fj

variable [IsStrictOrderedRing K]

section Hats

variable {o : ℕ} {f : K} (hf : f ∈ Set.Icc (o : K) (o + 1))

include hf

theorem hat_origin : hat o f = 1 - (f - o) := by
  obtain ⟨hlow, hhigh⟩ := hf
  rw [hat, abs_of_nonneg (by linarith), max_eq_right (by linarith)]

theorem hat_next : hat (o + 1) f = f - o := by
  obtain ⟨hlow, hhigh⟩ := hf
  rw [hat, Nat.cast_add, Nat.cast_one, abs_of_nonpos (by linarith), max_eq_right (by linarith)]
  ring

theorem hat_eq_zero {i : ℕ} (ho : i ≠ o) (hnext : i ≠ o + 1) : hat i f = 0 := by
  obtain ⟨hlow, hhigh⟩ := hf
  have hfar : 1 ≤ |f - i| := by
    rcases lt_or_gt_of_ne ho with hlt | hgt
    · have hle : (i : K) + 1 ≤ o := by exact_mod_cast hlt
      exact le_abs.mpr (.inl (by linarith))
    · have hle : (o : K) + 2 ≤ i := by exact_mod_cast (by omega : o + 2 ≤ i)
      exact le_abs.mpr (.inr (by linarith))
  exact max_eq_left (by linarith)

/-- Of a sum of hats only the two ends of a cell that holds the index are left. -/
theorem sum_hat {n : ℕ} (ho : o + 1 < n) (v : ℕ → K) :
    ∑ i ∈ Finset.range n, v i * hat i f = v o * (1 - (f - o)) + v (o + 1) * (f - o) := by
  have hsum := Finset.sum_eq_add_of_mem (s := Finset.range n) (f := fun i => v i * hat i f)
    o (o + 1) (Finset.mem_range.mpr (by omega)) (Finset.mem_range.mpr ho) (by omega)
    (fun i _ hi => by rw [hat_eq_zero hf hi.1 hi.2, mul_zero])
  rw [hsum, hat_origin hf, hat_next hf]

end Hats

theorem hat_natCast (i k : ℕ) : hat i (k : K) = if i = k then 1 else 0 := by
  have hk : (k : K) ∈ Set.Icc (k : K) (k + 1) := ⟨le_rfl, by linarith⟩
  split_ifs with hi
  · rw [hi, hat_origin hk, sub_self, sub_zero]
  · rcases eq_or_ne i (k + 1) with rfl | hnext
    · rw [hat_next hk, sub_self]
    · exact hat_eq_zero hk hi hnext

variable [FloorRing K] {g : Grid K}

/-- The sum over all tie points is the mixture over any cell that holds the indices. -/
theorem hatSum_eq_mix {i j : ℕ} {fi fj : K} (hi : i + 1 < g.width) (hj : j + 1 < g.height)
    (hfi : fi ∈ Set.Icc (i : K) (i + 1)) (hfj : fj ∈ Set.Icc (j : K) (j + 1)) :
    hatSum g fi fj = mix (fi - i) (fj - j) (g.node i j) (g.node (i + 1) j) (g.node i (j + 1))
      (g.node (i + 1) (j + 1)) := by
  have hcolumn : ∀ c, ∑ r ∈ Finset.range g.height, g.node c r * hat c fi * hat r fj =
      (g.node c j * (1 - (fj - j)) + g.node c (j + 1) * (fj - j)) * hat c fi := by
    intro c
    rw [← sum_hat hfj hj, Finset.sum_mul]
    exact Finset.sum_congr rfl fun r _ => mul_right_comm _ _ _
  simp only [hatSum, hcolumn]
  rw [sum_hat hfi hi, mix_eq]
  ring

theorem hatSum_natCast {i j : ℕ} (hi : i < g.width) (hj : j < g.height) :
    hatSum g (i : K) (j : K) = g.node i j := by
  simp [hatSum, hat_natCast, hi, hj]

/-! ## Places -/

section Places

variable {a : Axis K} (hspacing : 0 < a.spacing)

include hspacing

/-- A coordinate outside the axis has the index of the nearer end. -/
theorem heldIndex_held (hpoints : 2 ≤ a.points) (s : K) :
    heldIndex a (max (a.position 0) (min s (a.position (a.points - 1)))) = heldIndex a s := by
  obtain ⟨hlow, hhigh⟩ := heldIndex_mem hpoints s
  have hfirst : a.position 0 = a.offset + 0 * a.spacing := by
    rw [position_eq, Nat.cast_zero]
  have hlast : a.position (a.points - 1) = a.offset + (a.points - 1) * a.spacing := by
    rw [position_eq, Nat.cast_sub (by omega), Nat.cast_one]
  have hs : s = a.offset + (s - a.offset) / a.spacing * a.spacing := by
    rw [div_mul_cancel₀ _ hspacing.ne', add_sub_cancel]
  have hheld : max (a.position 0) (min s (a.position (a.points - 1))) =
      a.offset + heldIndex a s * a.spacing := by
    rw [heldIndex, max_mul_of_nonneg _ _ hspacing.le, min_mul_of_nonneg _ _ hspacing.le,
      ← max_add_add_left, ← min_add_add_left, ← hs, hfirst, hlast]
  rw [hheld, heldIndex, add_sub_cancel_left, mul_div_cancel_right₀ _ hspacing.ne',
    min_eq_left hhigh, max_eq_right hlow]

end Places

/-! ## Grids -/

theorem mixAtPlace_eq_hatSum (h : g.Consistent) (x y : K) :
    g.mixAtPlace x y = .ok (hatSum g (heldIndex g.geometry.x x) (heldIndex g.geometry.y y)) := by
  rw [h.mixAtPlace_eq, cell_weight h.width_ge h.width_lt, cell_weight h.height_ge h.height_lt,
    hatSum_eq_mix (Axis.cell_origin_add_one_lt h.width_ge x)
      (Axis.cell_origin_add_one_lt h.height_ge y) (heldIndex_mem_cell h.width_ge h.width_lt x)
      (heldIndex_mem_cell h.height_ge h.height_lt y)]

variable [Circular K] [Decomposition K]

theorem valueAt_eq_hatSum (h : g.Consistent) (hd : g.discontinuity = .none) (x y : K) :
    g.sampler.valueAt x y =
      .ok (hatSum g (heldIndex g.geometry.x x) (heldIndex g.geometry.y y)) := by
  rw [Grid.valueAt_of_plain hd, mixAtPlace_eq_hatSum h]

/-- A plain grid answers at each place with the sum of all its samples, weighted by the hats of
their columns and rows.  This is the sample at a tie point, the first and the last of each axis
included, the mixture over every cell that holds the place, and outside the grid the value at the
nearest place of the grid. -/
theorem valueAt_eq_sum_hat (h : g.Consistent) (hd : g.discontinuity = .none) :
    (∀ x y : K, g.sampler.valueAt x y =
      .ok (∑ i ∈ Finset.range g.width, ∑ j ∈ Finset.range g.height,
        g.node i j * hat i (heldIndex g.geometry.x x) * hat j (heldIndex g.geometry.y y))) ∧
    (∀ i < g.width, ∀ j < g.height, g.sample i j = .ok (g.node i j) ∧
      g.sampler.valueAt (g.geometry.x.position i) (g.geometry.y.position j) = g.sample i j) ∧
    (∀ (x y : K) (i j : ℕ), i + 1 < g.width → j + 1 < g.height →
      heldIndex g.geometry.x x ∈ Set.Icc (i : K) (i + 1) →
      heldIndex g.geometry.y y ∈ Set.Icc (j : K) (j + 1) →
      g.sampler.valueAt x y =
        .ok (mix (heldIndex g.geometry.x x - i) (heldIndex g.geometry.y y - j) (g.node i j)
          (g.node (i + 1) j) (g.node i (j + 1)) (g.node (i + 1) (j + 1)))) ∧
    ∀ x y : K, g.sampler.valueAt x y =
      g.sampler.valueAt
        (max (g.geometry.x.position 0) (min x (g.geometry.x.position (g.width - 1))))
        (max (g.geometry.y.position 0) (min y (g.geometry.y.position (g.height - 1)))) := by
  have hx := spacing_pos_of_hasPositiveSpacing h.valid.spacing_x
  have hy := spacing_pos_of_hasPositiveSpacing h.valid.spacing_y
  have hvalue := valueAt_eq_hatSum h hd
  refine ⟨hvalue, ?_, ?_, ?_⟩
  · intro i hi j hj
    refine ⟨h.sample_eq hi hj, ?_⟩
    rw [hvalue, heldIndex_position hx hi, heldIndex_position hy hj, hatSum_natCast hi hj,
      h.sample_eq hi hj]
  · intro x y i j hi hj hfi hfj
    rw [hvalue, hatSum_eq_mix hi hj hfi hfj]
  · intro x y
    rw [hvalue, hvalue]
    exact congrArg _ (congrArg₂ _ (heldIndex_held hx h.width_ge x).symm
      (heldIndex_held hy h.height_ge y).symm)

/-- A place in the last cells of both axes, the last tie point, and a place beyond it. -/
theorem valueAt_eq_sum_hat_of_last_cell :
    let _ : Circular ℚ := ⟨3, id, id, fun y _ => y⟩
    let _ : Decomposition ℚ := ⟨fun _ => 0, fun _ _ => 0, fun _ => none⟩
    let g : Grid ℚ := ⟨"pressure", none, none, ⟨⟨3, 1 / 2, 2⟩, ⟨2, 1 / 2, 2⟩⟩,
      #[1, 2, 4, 8, 16, 32], .none⟩
    g.sampler.valueAt (7 / 2) 1 = .ok (33 / 4) ∧ g.sampler.valueAt (9 / 2) (5 / 2) = .ok 32 ∧
      g.sampler.valueAt 100 1000 = .ok 32 := by
  intro _ _ g
  have h : g.Consistent := by decide +kernel
  obtain ⟨hsum, -, -, -⟩ := valueAt_eq_sum_hat h rfl
  refine ⟨?_, ?_, ?_⟩ <;> rw [hsum] <;> exact congrArg _ (by decide +kernel)

end TiePoints.Exact
