import Mathlib.Analysis.SpecialFunctions.Complex.Arg
import TiePoints.Proofs.Block.PointQueries
import TiePoints.Proofs.Exact.Cell

/-!
# Arcs of angles

Over the real numbers the vector that a grid of angles mixes at a place is a
mean of the directions of four tie points.  It lies in every closed half-plane
that holds all four, and it is no longer than one.  Where the four directions
lie on an arc of less than half a turn, the part of the vector along the middle
of the arc is at least the cosine of half its extent.  The vector is therefore
not zero, and as it is no longer than one, its own direction is no farther from
the middle than the ends of the arc are.
-/

namespace TiePoints

/-- Real sines and cosines, and the direction of every vector that is not zero. -/
structure Circular.Directional (c : Circular ℝ) : Prop where
  pi_eq : c.pi = Real.pi
  sin_eq : c.sin = Real.sin
  cos_eq : c.cos = Real.cos
  atan2_spec : ∀ x y : ℝ, (x, y) ≠ 0 → ∃ ρ > 0,
    x = ρ * Real.cos (c.atan2 y x) ∧ y = ρ * Real.sin (c.atan2 y x)

theorem Circular.directional_arg :
    Circular.Directional ⟨Real.pi, Real.sin, Real.cos, fun y x => Complex.arg ⟨x, y⟩⟩ := by
  refine ⟨rfl, rfl, rfl, ?_⟩
  intro x y hne
  refine ⟨‖(⟨x, y⟩ : ℂ)‖, ?_, (Complex.norm_mul_cos_arg ⟨x, y⟩).symm,
    (Complex.norm_mul_sin_arg ⟨x, y⟩).symm⟩
  rw [gt_iff_lt, norm_pos_iff]
  intro hzero
  obtain ⟨rfl, rfl⟩ := Complex.mk.inj hzero
  exact hne rfl

namespace Exact

/-! ## Degrees -/

noncomputable def radians (v : ℝ) : ℝ := v * (Real.pi / 180)

theorem radians_strictMono : StrictMono radians :=
  strictMono_mul_right_of_pos (div_pos Real.pi_pos (by norm_num))

theorem radians_add (u v : ℝ) : radians (u + v) = radians u + radians v := add_mul u v _

theorem radians_neg (v : ℝ) : radians (-v) = -radians v := neg_mul v _

theorem radians_half_turn : radians 180 = Real.pi := mul_div_cancel₀ _ (by norm_num)

theorem radians_add_turns (v : ℝ) (k : ℤ) :
    radians (v + k * 360) = radians v + k * (2 * Real.pi) := by
  unfold radians
  ring

theorem cos_radians_sub (u w : ℝ) : Real.cos (radians (u - w)) =
    Real.cos (radians w) * Real.cos (radians u) + Real.sin (radians w) * Real.sin (radians u) := by
  have hsub : radians (u - w) = radians u - radians w := by
    unfold radians
    ring
  rw [hsub, Real.cos_sub]
  ring

theorem cos_radians_le_iff {u w : ℝ} (hu : u ∈ Set.Icc 0 180) (hw : w ∈ Set.Icc 0 180) :
    Real.cos (radians u) ≤ Real.cos (radians w) ↔ w ≤ u := by
  have hmem : ∀ {t : ℝ}, t ∈ Set.Icc 0 180 → radians t ∈ Set.Icc 0 Real.pi := by
    intro t ⟨hlow, hhigh⟩
    rw [← radians_half_turn]
    exact ⟨mul_nonneg hlow (by positivity), radians_strictMono.monotone hhigh⟩
  rw [Real.strictAntiOn_cos.le_iff_ge (hmem hu) (hmem hw), radians_strictMono.le_iff_le]

/-- The angle lies, up to whole turns, on the arc of `d` degrees that starts at `a`. -/
def OnArc (a d v : ℝ) : Prop := ∃ k : ℤ, v + k * 360 ∈ Set.Icc a (a + d)

/-- What lies on an arc is no farther from its middle than its ends are. -/
theorem onArc_iff {a d v : ℝ} (hd : 0 ≤ d) (hd' : d ≤ 360) :
    OnArc a d v ↔
      Real.cos (radians (d / 2)) ≤ Real.cos (radians (v - (a + d / 2))) := by
  have hhalf : d / 2 ∈ Set.Icc 0 180 := ⟨by linarith, by linarith⟩
  have hturn : ∀ k : ℤ, Real.cos (radians (v - (a + d / 2))) =
      Real.cos (radians |v + k * 360 - (a + d / 2)|) := by
    intro k
    have habs : radians |v + k * 360 - (a + d / 2)| = |radians (v + k * 360 - (a + d / 2))| := by
      unfold radians
      rw [abs_mul, abs_of_pos (div_pos Real.pi_pos (by norm_num))]
    rw [habs, Real.cos_abs, add_sub_right_comm, radians_add_turns, Real.cos_add_int_mul_two_pi]
  constructor
  · rintro ⟨k, hlow, hhigh⟩
    have hnear : |v + k * 360 - (a + d / 2)| ≤ d / 2 := abs_le.mpr ⟨by linarith, by linarith⟩
    rw [hturn k, cos_radians_le_iff hhalf ⟨abs_nonneg _, hnear.trans hhalf.2⟩]
    exact hnear
  · -- turned to the half turns on either side of the middle, the angle is compared by its cosine
    intro hcos
    have hturnPos : (0 : ℝ) < 360 := by norm_num
    obtain ⟨hlow, hhigh⟩ := toIocMod_mem_Ioc hturnPos (-180) (v - (a + d / 2))
    set k : ℤ := -toIocDiv hturnPos (-180) (v - (a + d / 2)) with hk
    have hmod : v + k * 360 - (a + d / 2) = toIocMod hturnPos (-180) (v - (a + d / 2)) := by
      rw [← self_sub_toIocDiv_mul, hk]
      push_cast
      ring
    have hle : |v + k * 360 - (a + d / 2)| ≤ 180 := by
      rw [hmod]
      exact abs_le.mpr ⟨hlow.le, by linarith⟩
    rw [hturn k, cos_radians_le_iff hhalf ⟨abs_nonneg _, hle⟩, abs_le] at hcos
    exact ⟨k, by linarith, by linarith⟩

theorem cos_half_pos {d : ℝ} (hd : 0 ≤ d) (hd' : d < 180) : 0 < Real.cos (radians (d / 2)) := by
  have hpi := Real.pi_pos
  apply Real.cos_pos_of_mem_Ioo
  unfold radians
  constructor
  · linarith [mul_nonneg hd hpi.le]
  · linarith [mul_lt_mul_of_pos_right hd' hpi]

/-! ## Vectors between directions -/

/-- The vector `(c, s)` keeps every lower bound that a linear map has on the directions, so it
lies in their convex hull. -/
def InHull (directions : List ℝ) (c s : ℝ) : Prop :=
  ∀ p q lo : ℝ,
    (∀ v ∈ directions, lo ≤ p * Real.cos (radians v) + q * Real.sin (radians v)) →
    lo ≤ p * c + q * s

namespace InHull

variable {directions : List ℝ} {a d c s r ρ : ℝ}

theorem cos_half_le (h : InHull directions c s) (hd : 0 ≤ d) (hd' : d < 180)
    (harc : ∀ v ∈ directions, OnArc a d v) :
    Real.cos (radians (d / 2)) ≤
      Real.cos (radians (a + d / 2)) * c + Real.sin (radians (a + d / 2)) * s := by
  apply h
  intro v hv
  rw [← cos_radians_sub]
  exact (onArc_iff hd (by linarith)).mp (harc v hv)

theorem ne_zero (h : InHull directions c s) (hd : 0 ≤ d) (hd' : d < 180)
    (harc : ∀ v ∈ directions, OnArc a d v) : (c, s) ≠ 0 := by
  intro hzero
  obtain ⟨rfl, rfl⟩ := Prod.mk.inj hzero
  have hpart := h.cos_half_le hd hd' harc
  have hpos := cos_half_pos hd hd'
  linarith

theorem length_le_one
    (h : InHull directions (ρ * Real.cos (radians r)) (ρ * Real.sin (radians r))) : ρ ≤ 1 := by
  -- no direction has a longer part along the vector than one
  have hlength := h (-Real.cos (radians r)) (-Real.sin (radians r)) (-1) fun v _ => by
    have hle := Real.cos_le_one (radians (v - r))
    rw [cos_radians_sub] at hle
    linarith
  linear_combination hlength - ρ * Real.cos_sq_add_sin_sq (radians r)

theorem onArc (hρ : 0 < ρ)
    (h : InHull directions (ρ * Real.cos (radians r)) (ρ * Real.sin (radians r)))
    (hd : 0 ≤ d) (hd' : d < 180) (harc : ∀ v ∈ directions, OnArc a d v) : OnArc a d r := by
  have hpart : Real.cos (radians (d / 2)) ≤ ρ * Real.cos (radians (r - (a + d / 2))) := by
    have hpart := h.cos_half_le hd hd' harc
    rw [cos_radians_sub]
    linarith
  have hpos : 0 < Real.cos (radians (r - (a + d / 2))) :=
    pos_of_mul_pos_right ((cos_half_pos hd hd').trans_le hpart) hρ.le
  rw [onArc_iff hd (by linarith)]
  exact hpart.trans (mul_le_of_le_one_left hpos.le h.length_le_one)

end InHull

/-! ## Components -/

section Components

variable [lib : Circular ℝ] (hlib : lib.Directional) {g : Grid ℝ}

include hlib

theorem toRadians_eq (v : ℝ) : Circular.toRadians v = radians v := by
  rw [Circular.toRadians, hlib.pi_eq]
  rfl

theorem components_eq : g.components =
    ⟨g.component (g.samples.map fun v => Real.sin (radians v)),
      g.component (g.samples.map fun v => Real.cos (radians v))⟩ := by
  simp only [Grid.components, toRadians_eq hlib, hlib.sin_eq, hlib.cos_eq]
  rfl

theorem exists_inHull_corners (h : g.Consistent) (x y : ℝ) :
    ∃ s c, g.components.sin.mixAtPlace x y = .ok s ∧ g.components.cos.mixAtPlace x y = .ok c ∧
      InHull (g.corners x y) c s := by
  rw [components_eq hlib]
  refine ⟨_, _, h.mixAtPlace_component_map _ x y, h.mixAtPlace_component_map _ x y, ?_⟩
  intro p q lo hlo
  simp only [Grid.corners, List.forall_mem_cons, List.not_mem_nil, false_implies, implies_true,
    and_true] at hlo
  obtain ⟨h00, h10, h01, h11⟩ := hlo
  rw [mix_linear]
  exact le_mix (cell_weight_mem h.width_ge h.width_lt x)
    (cell_weight_mem h.height_ge h.height_lt y) h00 h10 h01 h11

theorem radians_toDegrees (θ : ℝ) : radians (Circular.toDegrees θ) = θ := by
  rw [Circular.toDegrees, hlib.pi_eq, ofNat_eq, radians]
  field_simp
  norm_num

theorem exists_radians_combine (d : Discontinuity) (s c : ℝ) :
    ∃ k : ℤ, radians (d.combine s c) = lib.atan2 s c + k * (2 * Real.pi) := by
  have hdegrees := radians_toDegrees hlib (lib.atan2 s c)
  simp only [Discontinuity.combine]
  split_ifs
  · refine ⟨1, ?_⟩
    rw [ofNat_eq, Int.cast_one, one_mul]
    have hone := radians_add_turns (Circular.toDegrees (lib.atan2 s c)) 1
    rwa [hdegrees, Int.cast_one, one_mul, one_mul] at hone
  · exact ⟨0, by rw [hdegrees, Int.cast_zero, zero_mul, add_zero]⟩

theorem combine_direction (d : Discontinuity) {s c : ℝ} (hne : (c, s) ≠ 0) :
    ∃ ρ > 0, c = ρ * Real.cos (radians (d.combine s c)) ∧
      s = ρ * Real.sin (radians (d.combine s c)) := by
  obtain ⟨ρ, hρ, hc, hs⟩ := hlib.atan2_spec c s hne
  obtain ⟨k, hk⟩ := exists_radians_combine hlib d s c
  refine ⟨ρ, hρ, ?_, ?_⟩
  · rwa [hk, Real.cos_add_int_mul_two_pi]
  · rwa [hk, Real.sin_add_int_mul_two_pi]

end Components

/-! ## Answers -/

section Answers

variable [lib : Circular ℝ] [Decomposition ℝ] (hlib : lib.Directional) {g : Grid ℝ}

include hlib

theorem exists_mixed_direction (h : g.Consistent) (hangular : g.discontinuity.isAngular)
    (x y : ℝ) :
    ∃ s c r, g.components.sin.mixAtPlace x y = .ok s ∧ g.components.cos.mixAtPlace x y = .ok c ∧
      g.sampler.valueAt x y = .ok r ∧ InHull (g.corners x y) c s ∧
      ((c, s) ≠ 0 → ∃ ρ > 0, c = ρ * Real.cos (radians r) ∧ s = ρ * Real.sin (radians r)) := by
  obtain ⟨s, c, hs, hc, hhull⟩ := exists_inHull_corners hlib h x y
  refine ⟨s, c, g.discontinuity.combine s c, hs, hc, ?_, hhull, combine_direction hlib _⟩
  rw [Sampler.valueAt_of_isAngular hangular, Grid.components_sampler, Grid.grid_sampler]
  simp only [Components.mixAtPlace, hs, hc]
  rfl

/-- A grid of angles answers in the closed half-planes that hold its four corners, and on each
arc of less than half a turn that holds them. -/
theorem valueAt_onArc (h : g.Consistent) (hangular : g.discontinuity.isAngular) (x y : ℝ) :
    ∃ s c r, g.components.sin.mixAtPlace x y = .ok s ∧ g.components.cos.mixAtPlace x y = .ok c ∧
      g.sampler.valueAt x y = .ok r ∧
      (∀ p q : ℝ,
        (∀ v ∈ g.corners x y, 0 ≤ p * Real.cos (radians v) + q * Real.sin (radians v)) →
        0 ≤ p * c + q * s ∧
          ((c, s) ≠ 0 → 0 ≤ p * Real.cos (radians r) + q * Real.sin (radians r))) ∧
      ∀ a d : ℝ, 0 ≤ d → d < 180 → (∀ v ∈ g.corners x y, OnArc a d v) →
        (c, s) ≠ 0 ∧ OnArc a d r := by
  obtain ⟨s, c, r, hs, hc, hr, hhull, hdirection⟩ := exists_mixed_direction hlib h hangular x y
  refine ⟨s, c, r, hs, hc, hr, ?_, ?_⟩
  · intro p q hcorners
    have hvector := hhull p q 0 hcorners
    refine ⟨hvector, ?_⟩
    intro hne
    obtain ⟨ρ, hρ, rfl, rfl⟩ := hdirection hne
    have hscaled : p * (ρ * Real.cos (radians r)) + q * (ρ * Real.sin (radians r)) =
        ρ * (p * Real.cos (radians r) + q * Real.sin (radians r)) := by ring
    rw [hscaled] at hvector
    exact nonneg_of_mul_nonneg_right hvector hρ
  · intro a d hd hd' hcorners
    have hne := hhull.ne_zero hd hd' hcorners
    obtain ⟨ρ, hρ, rfl, rfl⟩ := hdirection hne
    exact ⟨hne, hhull.onArc hρ hd hd' hcorners⟩

end Answers

/-- Four directions on an arc of twenty degrees across the wrap, at a place off their middle. -/
theorem valueAt_onArc_across_north :
    let _ : Circular ℝ := ⟨Real.pi, Real.sin, Real.cos, fun y x => Complex.arg ⟨x, y⟩⟩
    let _ : Decomposition ℝ := ⟨fun _ => 0, fun _ _ => 0, fun _ => none⟩
    let g : Grid ℝ := ⟨"azimuth", none, none, ⟨⟨2, 1 / 2, 2⟩, ⟨2, 1 / 2, 2⟩⟩,
      #[350, 10, 0, 5], .at360⟩
    ∃ r, g.sampler.valueAt 1 (3 / 4) = .ok r ∧ OnArc 350 20 r := by
  intro lib _ g
  have hlib : lib.Directional := Circular.directional_arg
  have h : g.Consistent :=
    ⟨⟨le_rfl, le_rfl, rfl, by decide, hasPositiveSpacing_of_pos two_pos,
      hasPositiveSpacing_of_pos two_pos, rfl, rfl⟩⟩
  have hcorners : g.corners 1 (3 / 4) = [350, 10, 0, 5] := Grid.corners_of_one_cell rfl rfl _ _
  obtain ⟨s, c, r, -, -, hr, -, harc⟩ := valueAt_onArc hlib h rfl 1 (3 / 4)
  refine ⟨r, hr, (harc 350 20 (by norm_num) (by norm_num) ?_).2⟩
  rw [hcorners]
  simp only [List.forall_mem_cons, List.not_mem_nil, false_implies, implies_true, and_true]
  refine ⟨⟨0, ?_⟩, ⟨1, ?_⟩, ⟨1, ?_⟩, ⟨1, ?_⟩⟩ <;> constructor <;> norm_num

end Exact

end TiePoints
