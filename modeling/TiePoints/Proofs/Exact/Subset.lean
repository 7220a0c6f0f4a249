import Mathlib.Data.Rat.Floor
import TiePoints.Proofs.Block.Outcome
import TiePoints.Proofs.Exact.Window
import TiePoints.Proofs.Grid.Rectangles

/-!
# Values of subsets in exact arithmetic

A subset answers at each place that it covers as its source answers at the
corresponding place of the source's scene.  This holds of every subset, whether
its region lies in the scene, reaches out of it or misses it, and of grids of
angles as of plain ones.
-/

namespace TiePoints

theorem Grid.WindowOf.valueAt_eq {α : Type} [Scalar α] [Circular α] [Decomposition α]
    {sub g : Grid α} {x y : Nat} (hwin : sub.WindowOf g x y) (hsub : sub.Consistent)
    (hg : g.Consistent) (hd : sub.discontinuity = g.discontinuity) {u v s t : α}
    (hcolumn : g.geometry.x.cell s =
      ⟨x + (sub.geometry.x.cell u).origin, (sub.geometry.x.cell u).weight⟩)
    (hrow : g.geometry.y.cell t =
      ⟨y + (sub.geometry.y.cell v).origin, (sub.geometry.y.cell v).weight⟩) :
    sub.sampler.valueAt u v = g.sampler.valueAt s t := by
  by_cases ha : g.discontinuity.isAngular
  · have ha' : sub.discontinuity.isAngular := hd ▸ ha
    rw [Sampler.valueAt_of_isAngular ha', Sampler.valueAt_of_isAngular ha]
    have hd' : sub.sampler.grid.discontinuity = g.discontinuity := hd
    rw [hd']
    exact hwin.components_mixAtPlace_eq hsub hg g.discontinuity hcolumn hrow
  · have ha' : ¬ sub.discontinuity.isAngular := hd ▸ ha
    rw [Sampler.valueAt_of_not_isAngular ha', Sampler.valueAt_of_not_isAngular ha]
    exact hwin.mixAtPlace_eq hsub hg hcolumn hrow

namespace Exact

variable {K : Type} [Field K] [LinearOrder K] [FloorRing K] [IsStrictOrderedRing K]
variable {g : Grid K} {r : Region} {stepX stepY : ℕ}

/-- In exact arithmetic no step spoils the placement of a subset. -/
theorem sound_subset (h : g.Consistent) (r : Region) (hx : 0 < stepX) (hy : 0 < stepY) :
    (g.geometry.subset r stepX stepY).Sound where
  width := Window.two_le_covering_count _ _ _ _
  height := Window.two_le_covering_count _ _ _ _
  spacing_x_pos := by
    rw [zero_eq]
    exact subsetSpacing_pos (spacing_pos_of_hasPositiveSpacing h.valid.spacing_x) hx
  spacing_x_finite := rfl
  spacing_y_pos := by
    rw [zero_eq]
    exact subsetSpacing_pos (spacing_pos_of_hasPositiveSpacing h.valid.spacing_y) hy
  spacing_y_finite := rfl
  offset_x_finite := rfl
  offset_y_finite := rfl

theorem ceil_eq {length step : ℕ} (hstep : 0 < step) :
    ⌈(length : K) / step⌉₊ = (length + step - 1) / step := by
  apply eq_of_forall_ge_iff
  intro n
  have hstep' : (0 : K) < step := Nat.cast_pos.mpr hstep
  rw [Nat.ceil_le, div_le_iff₀ hstep', ← Nat.cast_mul, Nat.cast_le, Nat.div_le_iff_le_mul hstep]
  omega

theorem pixelCentre_mem_extent {i n : ℕ} (h : i < n) :
    0 ≤ (pixelCentre i : K) ∧ (pixelCentre i : K) ≤ n := by
  have hnonneg : (0 : K) ≤ i := Nat.cast_nonneg i
  have hnext : (i : K) + 1 ≤ n := by exact_mod_cast h
  rw [pixelCentre_eq]
  constructor <;> linarith

omit [IsStrictOrderedRing K] in
theorem pixelCentre_subset (start i step : ℕ) :
    (start : K) + (pixelCentre i - 1 / 2) * step + 1 / 2 = pixelCentre (start + i * step) := by
  rw [pixelCentre_eq, pixelCentre_eq, Nat.cast_add, Nat.cast_mul]
  ring

variable [Circular K] [Decomposition K]

theorem valueAt_eq_of_windowOf {sub : Grid K} (h : g.Consistent) (hsub : sub.Consistent)
    (hx : 0 < stepX) (hy : 0 < stepY) (hd : sub.discontinuity = g.discontinuity)
    (hgeometry : sub.geometry = g.geometry.subset r stepX stepY)
    (hwin : sub.WindowOf g (g.geometry.kept r stepX stepY).x (g.geometry.kept r stepX stepY).y)
    {u v : K} (hu : 0 ≤ u) (hu' : u ≤ ⌈(r.width : K) / stepX⌉₊) (hv : 0 ≤ v)
    (hv' : v ≤ ⌈(r.height : K) / stepY⌉₊) :
    sub.sampler.valueAt u v = g.sampler.valueAt (r.x + (u - 1 / 2) * stepX + 1 / 2)
      (r.y + (v - 1 / 2) * stepY + 1 / 2) := by
  have hposx := spacing_pos_of_hasPositiveSpacing h.valid.spacing_x
  have hposy := spacing_pos_of_hasPositiveSpacing h.valid.spacing_y
  rw [ceil_eq hx] at hu'
  rw [ceil_eq hy] at hv'
  apply hwin.valueAt_eq hsub h hd
  · rw [cell_subset h.width_ge h.width_lt hposx hx r.x hu hu', hgeometry]
    rfl
  · rw [cell_subset h.height_ge h.height_lt hposy hy r.y hv hv', hgeometry]
    rfl

/-- A subset answers at its place `(u, v)` as the source does at the place in its own scene, at
the centres of pixels and everywhere else in the extent. -/
theorem subset_valueAt (h : g.Consistent) (hw : 1 ≤ r.width) (hh : 1 ≤ r.height)
    (hx : 1 ≤ stepX) (hy : 1 ≤ stepY) :
    ∃ sub, g.subset (some r) stepX stepY = .ok sub ∧
      (∀ u v : K, 0 ≤ u → u ≤ ⌈(r.width : K) / stepX⌉₊ → 0 ≤ v → v ≤ ⌈(r.height : K) / stepY⌉₊ →
        ∃ a, sub.sampler.valueAt u v = .ok a ∧
          g.sampler.valueAt (r.x + (u - 1 / 2) * stepX + 1 / 2)
            (r.y + (v - 1 / 2) * stepY + 1 / 2) = .ok a) ∧
      ∀ i < ⌈(r.width : K) / stepX⌉₊, ∀ j < ⌈(r.height : K) / stepY⌉₊,
        ∃ a, sub.sampler.pixel i j = .ok a ∧
          g.sampler.pixel (r.x + i * stepX) (r.y + j * stepY) = .ok a := by
  have hregion : ¬ r.isEmpty := by
    rw [Region.isEmpty_iff]
    exact (Nat.mul_pos hw hh).ne'
  obtain ⟨sub, hsub, hcons, hd, hgeometry, hwin⟩ :=
    h.exists_subset hregion (Nat.ne_of_gt hx) (Nat.ne_of_gt hy) (sound_subset h r hx hy)
  have hvalue : ∀ u v : K, 0 ≤ u → u ≤ ⌈(r.width : K) / stepX⌉₊ → 0 ≤ v →
      v ≤ ⌈(r.height : K) / stepY⌉₊ → ∃ a, sub.sampler.valueAt u v = .ok a ∧
        g.sampler.valueAt (r.x + (u - 1 / 2) * stepX + 1 / 2)
          (r.y + (v - 1 / 2) * stepY + 1 / 2) = .ok a := by
    intro u v hu hu' hv hv'
    obtain ⟨a, ha⟩ := hcons.exists_valueAt (m := .bilinear) rfl u v
    refine ⟨a, ha, ?_⟩
    rw [← valueAt_eq_of_windowOf h hcons hx hy hd hgeometry hwin hu hu' hv hv']
    exact ha
  refine ⟨sub, hsub, hvalue, ?_⟩
  intro i hi j hj
  obtain ⟨hi0, hi1⟩ := pixelCentre_mem_extent (K := K) hi
  obtain ⟨hj0, hj1⟩ := pixelCentre_mem_extent (K := K) hj
  obtain ⟨a, ha, hga⟩ := hvalue _ _ hi0 hi1 hj0 hj1
  rw [pixelCentre_subset, pixelCentre_subset] at hga
  exact ⟨a, ha, hga⟩

/-- Every second column of a region that starts inside a grid of angles and reaches out of its
scene, at a place between the centres of pixels. -/
theorem subset_valueAt_reaching_out :
    let _ : Circular ℚ := ⟨3, id, id, fun y _ => y⟩
    let _ : Decomposition ℚ := ⟨fun _ => 0, fun _ _ => 0, fun _ => none⟩
    let g : Grid ℚ := ⟨"azimuth", none, none, ⟨⟨3, 1 / 2, 2⟩, ⟨2, 1 / 2, 2⟩⟩,
      #[350, 0, 10, 20, 30, 40], .at360⟩
    ∃ sub, g.subset (some ⟨1, 0, 9, 2⟩) 2 1 = .ok sub ∧
      ∃ a, sub.sampler.valueAt (9 / 4) (1 / 3) = .ok a ∧
        g.sampler.valueAt ((1 : ℕ) + (9 / 4 - 1 / 2) * (2 : ℕ) + 1 / 2)
          ((0 : ℕ) + (1 / 3 - 1 / 2) * (1 : ℕ) + 1 / 2) = .ok a := by
  intro _ _ g
  have h : g.Consistent := by decide +kernel
  obtain ⟨sub, hsub, hvalue, -⟩ :=
    subset_valueAt h (r := ⟨1, 0, 9, 2⟩) (by decide) (by decide) (show 1 ≤ 2 by decide)
      (show 1 ≤ 1 by decide)
  refine ⟨sub, hsub, hvalue _ _ (by norm_num) ?_ (by norm_num) ?_⟩
  · rw [ceil_eq (by decide)]
    norm_num
  · rw [ceil_eq (by decide)]
    norm_num

end Exact

end TiePoints
