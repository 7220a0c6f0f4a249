import Mathlib.Algebra.Order.BigOperators.Group.Finset
import Mathlib.Algebra.Order.Group.MinMax
import Mathlib.Data.Finset.Max
import Mathlib.Data.Finset.Prod
import TiePoints.Proofs.Exact.Hat

/-!
# Slopes of bilinear values

Along each axis the values of a plain grid run in straight lines from tie point
to tie point, and the lines meet there.  Their slopes are differences between
neighbouring samples or, off the rows and columns of the grid, means of such
differences.  No two values are therefore farther apart than the steepest slope
of each axis allows, however many cells lie between their places.
-/

namespace TiePoints

/-- The distances between samples that lie `di` columns and `dj` rows apart. -/
def Grid.differences {K : Type} [Field K] [LinearOrder K] [FloorRing K] (g : Grid K)
    (di dj : ℕ) : Set K :=
  {d | ∃ i j a b, i + di < g.width ∧ j + dj < g.height ∧ g.sample i j = .ok a ∧
    g.sample (i + di) (j + dj) = .ok b ∧ d = |b - a|}

namespace Exact

variable {K : Type} [Field K] [LinearOrder K]

/-! ## Differences of samples -/

section Differences

variable [FloorRing K] {g : Grid K}

theorem mem_differences (h : g.Consistent) {i j di dj : ℕ} (hi : i + di < g.width)
    (hj : j + dj < g.height) : |g.node (i + di) (j + dj) - g.node i j| ∈ g.differences di dj :=
  ⟨i, j, _, _, hi, hj, h.sample_eq (Nat.lt_of_add_right_lt hi) (Nat.lt_of_add_right_lt hj),
    h.sample_eq hi hj, rfl⟩

theorem differences_eq_image (h : g.Consistent) (di dj : ℕ) : g.differences di dj =
    ((Finset.range (g.width - di) ×ˢ Finset.range (g.height - dj)).image
      fun p => |g.node (p.1 + di) (p.2 + dj) - g.node p.1 p.2| : Finset K) := by
  ext d
  simp only [Finset.coe_image, Finset.coe_product, Finset.coe_range, Set.mem_image, Set.mem_prod,
    Set.mem_Iio, Prod.exists, Nat.lt_sub_iff_add_lt]
  constructor
  · rintro ⟨i, j, a, b, hi, hj, ha, hb, rfl⟩
    rw [h.sample_eq (Nat.lt_of_add_right_lt hi) (Nat.lt_of_add_right_lt hj)] at ha
    rw [h.sample_eq hi hj] at hb
    rw [← Except.ok.inj ha, ← Except.ok.inj hb]
    exact ⟨i, j, ⟨hi, hj⟩, rfl⟩
  · rintro ⟨i, j, ⟨hi, hj⟩, rfl⟩
    exact mem_differences h hi hj

theorem exists_isGreatest_differences (h : g.Consistent) {di dj : ℕ} (hdi : di < g.width)
    (hdj : dj < g.height) : ∃ D, IsGreatest (g.differences di dj) D := by
  rw [differences_eq_image h]
  refine ⟨_, Finset.isGreatest_max' _ ?_⟩
  rw [Finset.image_nonempty, Finset.nonempty_product, Finset.nonempty_range_iff,
    Finset.nonempty_range_iff]
  omega

end Differences

/-! ## Straight lines between points -/

/-- The line through `v i` at each index `i < n` that is straight from point to point. -/
def polyline (n : ℕ) (v : ℕ → K) (f : K) : K := ∑ i ∈ Finset.range n, v i * hat i f

section Rows

variable [FloorRing K] {g : Grid K}

theorem hatSum_eq_polyline_of_rows (fi fj : K) : hatSum g fi fj =
    polyline g.width (fun i => polyline g.height (fun j => g.node i j) fj) fi := by
  simp only [hatSum, polyline, Finset.sum_mul]
  refine Finset.sum_congr rfl fun i _ => Finset.sum_congr rfl fun j _ => ?_
  exact mul_right_comm _ _ _

theorem hatSum_eq_polyline_of_columns (fi fj : K) : hatSum g fi fj =
    polyline g.height (fun j => polyline g.width (fun i => g.node i j) fi) fj := by
  simp only [hatSum, polyline, Finset.sum_mul]
  exact Finset.sum_comm

end Rows

variable [IsStrictOrderedRing K] {n : ℕ} {v : ℕ → K} {D : K}

theorem polyline_sub_of_cell {o : ℕ} {f f' : K} (ho : o + 1 < n)
    (hf : f ∈ Set.Icc (o : K) (o + 1)) (hf' : f' ∈ Set.Icc (o : K) (o + 1)) :
    polyline n v f' - polyline n v f = (v (o + 1) - v o) * (f' - f) := by
  rw [polyline, polyline, sum_hat hf ho, sum_hat hf' ho]
  ring

/-- Lines whose points are near are near everywhere, as the hats sum to one. -/
theorem abs_polyline_sub_polyline_le {u : ℕ → K} {o : ℕ} {f : K} (ho : o + 1 < n)
    (hf : f ∈ Set.Icc (o : K) (o + 1)) (hnear : ∀ i < n, |u i - v i| ≤ D) :
    |polyline n u f - polyline n v f| ≤ D := by
  have hone : ∑ i ∈ Finset.range n, hat i f = 1 := by
    have hsum := sum_hat hf ho fun _ => 1
    simp only [one_mul, sub_add_cancel] at hsum
    exact hsum
  calc |polyline n u f - polyline n v f|
      = |∑ i ∈ Finset.range n, (u i - v i) * hat i f| := by
        simp only [polyline, sub_mul, Finset.sum_sub_distrib]
    _ ≤ ∑ i ∈ Finset.range n, |(u i - v i) * hat i f| := Finset.abs_sum_le_sum_abs _ _
    _ ≤ ∑ i ∈ Finset.range n, D * hat i f := by
        apply Finset.sum_le_sum
        intro i hi
        have hhat : 0 ≤ hat i f := le_max_left _ _
        rw [abs_mul, abs_of_nonneg hhat]
        exact mul_le_mul_of_nonneg_right (hnear i (Finset.mem_range.mp hi)) hhat
    _ = D := by rw [← Finset.mul_sum, hone, mul_one]

section Steps

variable (hstep : ∀ i, i + 1 < n → |v (i + 1) - v i| ≤ D)

include hstep

theorem abs_polyline_sub_le_of_cell {o : ℕ} {f f' : K} (ho : o + 1 < n) (hlow : (o : K) ≤ f)
    (hle : f ≤ f') (hhigh : f' ≤ o + 1) :
    |polyline n v f' - polyline n v f| ≤ D * (f' - f) := by
  rw [polyline_sub_of_cell ho ⟨hlow, hle.trans hhigh⟩ ⟨hlow.trans hle, hhigh⟩, abs_mul,
    abs_of_nonneg (sub_nonneg.mpr hle)]
  exact mul_le_mul_of_nonneg_right (hstep o ho) (sub_nonneg.mpr hle)

/-- By induction on the number of cells up to the greater index: the last of them meets those
before it at their common border. -/
theorem abs_polyline_sub_le_of_le {m : ℕ} (hm : m < n) {f f' : K} (hlow : 0 ≤ f) (hle : f ≤ f')
    (hhigh : f' ≤ m) : |polyline n v f' - polyline n v f| ≤ D * (f' - f) := by
  induction m generalizing f' with
  | zero =>
      rw [Nat.cast_zero] at hhigh
      obtain rfl : f = f' := le_antisymm hle (hhigh.trans hlow)
      simp only [sub_self, abs_zero, mul_zero, le_refl]
  | succ m ih =>
      have hm' : m < n := Nat.lt_of_succ_lt hm
      rw [Nat.cast_add_one] at hhigh
      rcases le_total f' m with hbefore | hlast
      · exact ih hm' hle hbefore
      rcases le_total (m : K) f with hsame | hborder
      · exact abs_polyline_sub_le_of_cell hstep hm hsame hle hhigh
      · calc |polyline n v f' - polyline n v f|
            ≤ |polyline n v f' - polyline n v m| + |polyline n v m - polyline n v f| :=
              abs_sub_le _ _ _
          _ ≤ D * (f' - m) + D * (m - f) :=
              add_le_add (abs_polyline_sub_le_of_cell hstep hm le_rfl hlast hhigh)
                (ih hm' hborder le_rfl)
          _ = D * (f' - f) := by ring

theorem abs_polyline_sub_le {f f' : K} (hf : f ∈ Set.Icc 0 ((n : K) - 1))
    (hf' : f' ∈ Set.Icc 0 ((n : K) - 1)) :
    |polyline n v f' - polyline n v f| ≤ D * |f' - f| := by
  wlog hle : f ≤ f' generalizing f f'
  · rw [abs_sub_comm, abs_sub_comm f']
    exact this hf' hf (le_of_not_ge hle)
  have hn : 1 ≤ n := Nat.one_le_cast.mp (sub_nonneg.mp (hf.1.trans hf.2))
  have hlast : f' ≤ (n - 1 : ℕ) := by
    rw [Nat.cast_sub hn, Nat.cast_one]
    exact hf'.2
  rw [abs_of_nonneg (sub_nonneg.mpr hle)]
  exact abs_polyline_sub_le_of_le hstep (Nat.sub_one_lt_of_lt hn) hf.1 hle hlast

end Steps

theorem abs_polyline_polyline_sub_le {m o : ℕ} {w : ℕ → ℕ → K} {e f f' : K}
    (hstep : ∀ i j, i + 1 < n → j < m → |w (i + 1) j - w i j| ≤ D) (ho : o + 1 < m)
    (he : e ∈ Set.Icc (o : K) (o + 1)) (hf : f ∈ Set.Icc 0 ((n : K) - 1))
    (hf' : f' ∈ Set.Icc 0 ((n : K) - 1)) :
    |polyline n (fun i => polyline m (w i) e) f' - polyline n (fun i => polyline m (w i) e) f| ≤
      D * |f' - f| := by
  apply abs_polyline_sub_le _ hf hf'
  intro i hi
  exact abs_polyline_sub_polyline_le ho he fun j hj => hstep i j hi hj

/-! ## Grids -/

variable [FloorRing K] {g : Grid K}

/-- Holding an index between the ends of an axis does not move indices apart. -/
theorem abs_heldIndex_sub_le {a : Axis K} (hspacing : 0 < a.spacing) (s t : K) :
    |heldIndex a t - heldIndex a s| ≤ |t - s| / a.spacing := by
  have hindex : (t - a.offset) / a.spacing - (s - a.offset) / a.spacing = (t - s) / a.spacing := by
    ring
  calc |heldIndex a t - heldIndex a s|
      ≤ |min ((t - a.offset) / a.spacing) (a.points - 1) -
          min ((s - a.offset) / a.spacing) (a.points - 1)| := by
        rw [heldIndex, heldIndex, max_comm 0, max_comm 0]
        exact abs_max_sub_max_le_abs _ _ _
    _ ≤ |(t - s) / a.spacing| := by
        rw [← hindex]
        exact (abs_min_sub_min_le_max _ _ _ _).trans (max_le le_rfl (by simp))
    _ = |t - s| / a.spacing := by rw [abs_div, abs_of_pos hspacing]

/-- From one place to the other along a row, and then along a column. -/
theorem abs_hatSum_sub_le (h : g.Consistent) {Dx Dy : K}
    (hDx : Dx ∈ upperBounds (g.differences 1 0)) (hDy : Dy ∈ upperBounds (g.differences 0 1))
    (x₁ x₂ y₁ y₂ : K) :
    |hatSum g (heldIndex g.geometry.x x₂) (heldIndex g.geometry.y y₂) -
        hatSum g (heldIndex g.geometry.x x₁) (heldIndex g.geometry.y y₁)| ≤
      Dx * |heldIndex g.geometry.x x₂ - heldIndex g.geometry.x x₁| +
        Dy * |heldIndex g.geometry.y y₂ - heldIndex g.geometry.y y₁| := by
  have hw := h.width_ge
  have hh := h.height_ge
  set fi₁ := heldIndex g.geometry.x x₁
  set fi₂ := heldIndex g.geometry.x x₂
  set fj₁ := heldIndex g.geometry.y y₁
  set fj₂ := heldIndex g.geometry.y y₂
  have hrow : |hatSum g fi₂ fj₁ - hatSum g fi₁ fj₁| ≤ Dx * |fi₂ - fi₁| := by
    rw [hatSum_eq_polyline_of_rows, hatSum_eq_polyline_of_rows]
    exact abs_polyline_polyline_sub_le (fun i j hi hj => hDx (mem_differences h hi hj))
      (Axis.cell_origin_add_one_lt hh y₁) (heldIndex_mem_cell hh h.height_lt y₁)
      (heldIndex_mem hw x₁) (heldIndex_mem hw x₂)
  have hcolumn : |hatSum g fi₂ fj₂ - hatSum g fi₂ fj₁| ≤ Dy * |fj₂ - fj₁| := by
    rw [hatSum_eq_polyline_of_columns, hatSum_eq_polyline_of_columns]
    exact abs_polyline_polyline_sub_le (fun j i hj hi => hDy (mem_differences h hi hj))
      (Axis.cell_origin_add_one_lt hw x₂) (heldIndex_mem_cell hw h.width_lt x₂)
      (heldIndex_mem hh y₁) (heldIndex_mem hh y₂)
  calc |hatSum g fi₂ fj₂ - hatSum g fi₁ fj₁|
      ≤ |hatSum g fi₂ fj₂ - hatSum g fi₂ fj₁| + |hatSum g fi₂ fj₁ - hatSum g fi₁ fj₁| :=
        abs_sub_le _ _ _
    _ ≤ Dy * |fj₂ - fj₁| + Dx * |fi₂ - fi₁| := add_le_add hcolumn hrow
    _ = Dx * |fi₂ - fi₁| + Dy * |fj₂ - fj₁| := add_comm _ _

theorem nonneg_of_mem_differences {di dj : ℕ} {d : K} (hd : d ∈ g.differences di dj) : 0 ≤ d := by
  obtain ⟨i, j, a, b, -, -, -, -, rfl⟩ := hd
  exact abs_nonneg _

/-- Between any two places, in one cell, in different ones or outside the grid, the value of a
plain grid changes along each axis by at most the greatest difference between neighbouring samples
for each spacing that the places are apart. -/
theorem abs_valueAt_sub_le [Circular K] [Decomposition K] (h : g.Consistent)
    (hd : g.discontinuity = .none) :
    ∃ Dx Dy, IsGreatest (g.differences 1 0) Dx ∧ IsGreatest (g.differences 0 1) Dy ∧
      ∀ x₁ x₂ y₁ y₂ : K, ∃ v₁ v₂,
        g.sampler.valueAt x₁ y₁ = .ok v₁ ∧ g.sampler.valueAt x₂ y₂ = .ok v₂ ∧
        |v₂ - v₁| ≤ Dx * |x₂ - x₁| / g.geometry.x.spacing +
          Dy * |y₂ - y₁| / g.geometry.y.spacing := by
  have hw := h.width_ge
  have hh := h.height_ge
  obtain ⟨Dx, hDx⟩ : ∃ D, IsGreatest (g.differences 1 0) D :=
    exists_isGreatest_differences h hw (Nat.zero_lt_of_lt hh)
  obtain ⟨Dy, hDy⟩ : ∃ D, IsGreatest (g.differences 0 1) D :=
    exists_isGreatest_differences h (Nat.zero_lt_of_lt hw) hh
  refine ⟨Dx, Dy, hDx, hDy, ?_⟩
  intro x₁ x₂ y₁ y₂
  refine ⟨_, _, valueAt_eq_hatSum h hd x₁ y₁, valueAt_eq_hatSum h hd x₂ y₂, ?_⟩
  have hx := abs_heldIndex_sub_le (spacing_pos_of_hasPositiveSpacing h.valid.spacing_x) x₁ x₂
  have hy := abs_heldIndex_sub_le (spacing_pos_of_hasPositiveSpacing h.valid.spacing_y) y₁ y₂
  calc _ ≤ _ := abs_hatSum_sub_le h hDx.2 hDy.2 x₁ x₂ y₁ y₂
    _ ≤ Dx * (|x₂ - x₁| / g.geometry.x.spacing) + Dy * (|y₂ - y₁| / g.geometry.y.spacing) :=
        add_le_add (mul_le_mul_of_nonneg_left hx (nonneg_of_mem_differences hDx.1))
          (mul_le_mul_of_nonneg_left hy (nonneg_of_mem_differences hDy.1))
    _ = Dx * |x₂ - x₁| / g.geometry.x.spacing + Dy * |y₂ - y₁| / g.geometry.y.spacing := by
        rw [mul_div_assoc, mul_div_assoc]

/-- Places in both cells of the first row, on different borders of it. -/
theorem abs_valueAt_sub_le_of_neighbouring_cells :
    let _ : Circular ℚ := ⟨3, id, id, fun y _ => y⟩
    let _ : Decomposition ℚ := ⟨fun _ => 0, fun _ _ => 0, fun _ => none⟩
    let g : Grid ℚ := ⟨"pressure", none, none, ⟨⟨3, 1 / 2, 2⟩, ⟨2, 1 / 2, 2⟩⟩,
      #[1, 2, 4, 8, 16, 32], .none⟩
    ∃ v₁ v₂, g.sampler.valueAt (3 / 2) (1 / 2) = .ok v₁ ∧
      g.sampler.valueAt (7 / 2) (5 / 2) = .ok v₂ ∧ |v₂ - v₁| ≤ 44 := by
  intro _ _ g
  have h : g.Consistent := by decide +kernel
  obtain ⟨Dx, Dy, hDx, hDy, hbound⟩ := abs_valueAt_sub_le h rfl
  have hrows : IsGreatest (g.differences 1 0) 16 := by
    rw [differences_eq_image h, IsGreatest, mem_upperBounds]
    decide +kernel
  have hcolumns : IsGreatest (g.differences 0 1) 28 := by
    rw [differences_eq_image h, IsGreatest, mem_upperBounds]
    decide +kernel
  obtain rfl := hDx.unique hrows
  obtain rfl := hDy.unique hcolumns
  obtain ⟨v₁, v₂, hv₁, hv₂, hle⟩ := hbound (3 / 2) (7 / 2) (1 / 2) (5 / 2)
  refine ⟨v₁, v₂, hv₁, hv₂, hle.trans ?_⟩
  norm_num [g]

end Exact

end TiePoints
