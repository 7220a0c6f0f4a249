import Mathlib.Data.Rat.Floor
import TiePoints.Proofs.Checked.Derivations
import TiePoints.Proofs.Exact.Window
import TiePoints.Proofs.Grid.Reads

/-!
# Subsets that keep everything

The subset over the whole scene, without a step, is the grid itself.  What could
be lost is a tie point at either end.  The first is kept because it does not lie
a spacing in front of the origin.  The last is kept although the length of the
scene is rounded and does not count the offset: rounding takes away half a pixel
at most, the offset a spacing at most, and the window ends one point behind the
first at or past the length.
-/

namespace TiePoints.Exact

variable {K : Type} [Field K] [LinearOrder K] [FloorRing K] [IsStrictOrderedRing K]

/-! ## Windows -/

/-- No point is left out if the second lies behind the origin and the last but two in front of the
extent. -/
theorem covering_eq_all {t0 spacing extent : K} {available : ℕ} (hspacing : 0 < spacing)
    (havailable : 2 ≤ available) (hlimit : available < Index.limit) (hfirst : -t0 < spacing)
    (hlast : t0 + (available - 3) * spacing < extent) :
    Window.covering t0 spacing extent available = ⟨0, available⟩ := by
  have hindex : (Window.covering t0 spacing extent available).first = 0 := by
    have hfloor : ⌊-t0 / spacing⌋₊ = 0 := Nat.floor_eq_zero.mpr ((div_lt_one hspacing).mpr hfirst)
    rw [covering_first_eq t0 spacing extent hlimit, hfloor, Nat.zero_min]
  have hceil : available ≤ ⌈(extent - t0) / spacing⌉₊ + 2 := by
    have hquotient : (available : K) - 3 < (extent - t0) / spacing := by
      rw [lt_div_iff₀ hspacing]
      linarith
    have hlt : (available : K) < ⌈(extent - t0) / spacing⌉₊ + 3 := by
      linarith [Nat.le_ceil ((extent - t0) / spacing)]
    have hcast : available < ⌈(extent - t0) / spacing⌉₊ + 3 := by exact_mod_cast hlt
    omega
  have hcount : (Window.covering t0 spacing extent available).count = available := by
    rw [covering_count_eq t0 spacing extent havailable hlimit, hindex]
    simp only [Nat.cast_zero, zero_mul, add_zero]
    omega
  generalize Window.covering t0 spacing extent available = window at hindex hcount
  cases window
  congr

/-! ## Axes -/

section Axes

variable {a : Axis K}

theorem lt_sceneLength (hspacing : 0 < a.spacing) (hpoints : 2 ≤ a.points)
    (hlimit : ((a.points : K) - 1) * a.spacing + 1 < (Index.limit : K) - 1) :
    ((a.points : K) - 1) * a.spacing + 1 / 2 < a.sceneLength := by
  have hcount : ((a.points - 1 : ℕ) : K) = a.points - 1 := by
    rw [Nat.cast_sub (by omega), Nat.cast_one]
  have hpositions : ((Index.limit - 1 : ℕ) : K) = Index.limit - 1 := by
    rw [Nat.cast_sub (by decide), Nat.cast_one]
  have hnonneg : (0 : K) ≤ ((a.points - 1 : ℕ) : K) * a.spacing :=
    mul_nonneg (Nat.cast_nonneg _) hspacing.le
  have hlength : a.sceneLength =
      min ⌊((a.points - 1 : ℕ) : K) * a.spacing + 1 + 1 / 2⌋₊ (Index.limit - 1) := by
    rw [← nearestIndex_eq (by linarith)]
    simp only [Axis.sceneLength, ofNat_eq, one_eq]
  rw [hlength, Nat.cast_min, lt_min_iff, hpositions, hcount]
  constructor
  · linarith [Nat.lt_floor_add_one (((a.points : K) - 1) * a.spacing + 1 + 1 / 2)]
  · linarith

theorem sceneLength_pos (hspacing : 0 < a.spacing) (hpoints : 2 ≤ a.points)
    (hlimit : ((a.points : K) - 1) * a.spacing + 1 < (Index.limit : K) - 1) :
    0 < a.sceneLength := by
  have hone : (1 : K) ≤ a.points := Nat.one_le_cast.mpr (by omega)
  have hspan : 0 ≤ ((a.points : K) - 1) * a.spacing :=
    mul_nonneg (sub_nonneg.mpr hone) hspacing.le
  have hpos : (0 : K) < a.sceneLength := by
    linarith [lt_sceneLength hspacing hpoints hlimit]
  exact Nat.cast_pos.mp hpos

/-- The full subset of an axis leaves no point out and moves none. -/
theorem subset_sceneLength (hspacing : 0 < a.spacing) (hpoints : 2 ≤ a.points)
    (hpositions : a.points < Index.limit) (hoffset : a.offset ∈ Set.Icc 0 a.spacing)
    (hlimit : ((a.points : K) - 1) * a.spacing + 1 < (Index.limit : K) - 1) :
    a.subsetWindow 0 a.sceneLength 1 = ⟨0, a.points⟩ ∧ a.subset 0 a.sceneLength 1 = a := by
  obtain ⟨hlow, hhigh⟩ := hoffset
  have hlength := lt_sceneLength hspacing hpoints hlimit
  have hsubsetSpacing : a.subsetSpacing 1 = a.spacing := by
    simp [Axis.subsetSpacing]
  have hsubsetOffset : a.subsetOffset 0 1 = a.offset := by
    simp [Axis.subsetOffset]
  have hwindow : a.subsetWindow 0 a.sceneLength 1 = ⟨0, a.points⟩ := by
    rw [Axis.subsetWindow, hsubsetSpacing, hsubsetOffset, Nat.add_sub_cancel, Nat.div_one]
    apply covering_eq_all hspacing hpoints hpositions (by linarith)
    calc a.offset + ((a.points : K) - 3) * a.spacing
        ≤ ((a.points : K) - 1) * a.spacing - a.spacing := by linarith
      _ < a.sceneLength := by linarith
  refine ⟨hwindow, ?_⟩
  simp only [Axis.subset, hwindow, hsubsetSpacing, hsubsetOffset, ofNat_eq, Nat.cast_zero,
    zero_mul, add_zero]

end Axes

/-! ## Grids -/

variable {g : Grid K}

theorem subset_scene_eq_self (h : g.Consistent)
    (hx : g.geometry.x.offset ∈ Set.Icc 0 g.geometry.x.spacing)
    (hy : g.geometry.y.offset ∈ Set.Icc 0 g.geometry.y.spacing)
    (hwidth : ((g.width : K) - 1) * g.geometry.x.spacing + 1 < (Index.limit : K) - 1)
    (hheight : ((g.height : K) - 1) * g.geometry.y.spacing + 1 < (Index.limit : K) - 1) :
    g.subset none 1 1 = .ok g := by
  have hposx := spacing_pos_of_hasPositiveSpacing h.valid.spacing_x
  have hposy := spacing_pos_of_hasPositiveSpacing h.valid.spacing_y
  obtain ⟨hcolumns, hsubx⟩ := subset_sceneLength hposx h.width_ge h.width_lt hx hwidth
  obtain ⟨hrows, hsuby⟩ := subset_sceneLength hposy h.height_ge h.height_lt hy hheight
  have hkept : g.geometry.kept g.geometry.scene 1 1 = ⟨0, 0, g.width, g.height⟩ := by
    simp only [Geometry.kept, Geometry.scene, hcolumns, hrows]
    rfl
  have hgeometry : g.geometry.subset g.geometry.scene 1 1 = g.geometry := by
    simp only [Geometry.subset, Geometry.scene, hsubx, hsuby]
  obtain ⟨hsteps, -⟩ | ⟨-, hempty, -⟩ | ⟨-, -, samples, hread, -, heq⟩ := h.subset_cases none 1 1
  · omega
  · have hpixels : 0 < g.geometry.scene.count :=
      Nat.mul_pos (sceneLength_pos hposx h.width_ge hwidth)
        (sceneLength_pos hposy h.height_ge hheight)
    exact absurd (Region.isEmpty_iff.mp hempty) hpixels.ne'
  · rw [Option.getD_none, hkept, h.read_all] at hread
    obtain rfl := Except.ok.inj hread
    rw [heq, Option.getD_none, hgeometry]
    exact map_eq_ok.mpr ⟨_, Grid.build_eq_ok_iff.mpr ⟨h.valid, rfl⟩, rfl⟩

/-- A grid whose first tie point lies within one spacing behind the origin of a scene that does not
end with the positions is its own full subset: placement, samples, wrap and description are the
same.  No chain of full subsets leads away from it. -/
theorem full_subset_eq_self [Circular K] (h : g.Consistent)
    (hx : g.geometry.x.offset ∈ Set.Icc 0 g.geometry.x.spacing)
    (hy : g.geometry.y.offset ∈ Set.Icc 0 g.geometry.y.spacing)
    (hwidth : ((g.width : K) - 1) * g.geometry.x.spacing + 1 < (Index.limit : K) - 1)
    (hheight : ((g.height : K) - 1) * g.geometry.y.spacing + 1 < (Index.limit : K) - 1) :
    g.subset none 1 1 = .ok g ∧
      ∀ n, g.fresh.deriveAll (List.replicate n (.subset none 1 1)) = .ok g.fresh := by
  have hself := subset_scene_eq_self h hx hy hwidth hheight
  refine ⟨hself, CachedGrid.deriveAll_replicate ?_⟩
  exact map_eq_ok.mpr ⟨g, hself, rfl⟩

/-- Columns a third of a pixel apart, and rows whose scene of 3.4 pixels is rounded down to end in
front of the last of them at 4.8. -/
theorem full_subset_eq_self_of_rounded_scene :
    let _ : Circular ℚ := ⟨3, id, id, fun y _ => y⟩
    let g : Grid ℚ := ⟨"altitude", some "m", none, ⟨⟨3, 1 / 3, 1 / 3⟩, ⟨2, 12 / 5, 12 / 5⟩⟩,
      #[1, 2, 4, 8, 16, 32], .none⟩
    g.geometry.scene = ⟨0, 0, 2, 3⟩ ∧ g.subset none 1 1 = .ok g ∧
      g.fresh.deriveAll [.subset none 1 1, .subset none 1 1] = .ok g.fresh := by
  intro _ g
  have h : g.Consistent := by decide +kernel
  obtain ⟨hself, hchain⟩ := full_subset_eq_self h (by decide +kernel) (by decide +kernel)
    (by decide +kernel) (by decide +kernel)
  exact ⟨by decide +kernel, hself, hchain 2⟩

end TiePoints.Exact
