import Mathlib.Analysis.SpecialFunctions.Complex.Arg
import TiePoints.Proofs.Exact.Arc

/-!
# Turned grids

The samples of a grid of angles may all be turned by one angle, and each of them
by whole turns of its own.  Whole turns are lost in sines and cosines.  The one
angle turns the direction of every tie point, and as mixing is linear, it turns
the vector that is mixed of them by the same rotation.  The vectors of the two
grids at a place are therefore equally long, and their directions differ by the
angle, up to whole turns: where angles wrap decides on the turns alone.
-/

namespace TiePoints

open Exact

/-- The grid with all samples turned by `d` degrees, that at position `p` by `k p` whole turns
besides. -/
noncomputable def Grid.turned (g : Grid ℝ) (d : ℝ) (k : ℕ → ℤ) : Grid ℝ :=
  { g with samples := g.samples.mapIdx fun p a => a + d + k p * Scalar.ofNat 360 }

namespace Exact

/-! ## Directions -/

/-- An angle is known up to whole turns by its sine and cosine. -/
theorem exists_turns_of_cos_eq_of_sin_eq {u v : ℝ}
    (hcos : Real.cos (radians u) = Real.cos (radians v))
    (hsin : Real.sin (radians u) = Real.sin (radians v)) : ∃ n : ℤ, u = v + n * 360 := by
  obtain ⟨n, hn⟩ := Real.Angle.angle_eq_iff_two_pi_dvd_sub.mp (Real.Angle.cos_sin_inj hcos hsin)
  have hturns : radians u = radians (v + n * 360) := by
    rw [radians_add_turns]
    linarith
  exact ⟨n, radians_strictMono.injective hturns⟩

theorem direction_ne_zero {ρ : ℝ} (hρ : 0 < ρ) (θ : ℝ) :
    (ρ * Real.cos θ, ρ * Real.sin θ) ≠ 0 := by
  intro hzero
  obtain ⟨hcos, hsin⟩ := Prod.mk.inj hzero
  have hunit := Real.cos_sq_add_sin_sq θ
  rw [(mul_eq_zero.mp hcos).resolve_left hρ.ne', (mul_eq_zero.mp hsin).resolve_left hρ.ne'] at hunit
  norm_num at hunit

/-- A vector that is not zero has one direction, up to whole turns. -/
theorem exists_turns_of_polar_eq {u v ρ ρ' : ℝ} (hρ : 0 < ρ) (hρ' : 0 < ρ')
    (hcos : ρ * Real.cos (radians u) = ρ' * Real.cos (radians v))
    (hsin : ρ * Real.sin (radians u) = ρ' * Real.sin (radians v)) : ∃ n : ℤ, u = v + n * 360 := by
  have hsquare : ρ ^ 2 = ρ' ^ 2 := by
    calc ρ ^ 2 = (ρ * Real.cos (radians u)) ^ 2 + (ρ * Real.sin (radians u)) ^ 2 := by
          linear_combination -ρ ^ 2 * Real.cos_sq_add_sin_sq (radians u)
      _ = (ρ' * Real.cos (radians v)) ^ 2 + (ρ' * Real.sin (radians v)) ^ 2 := by
          rw [hcos, hsin]
      _ = ρ' ^ 2 := by
          linear_combination ρ' ^ 2 * Real.cos_sq_add_sin_sq (radians v)
  have hlength : ρ = ρ' := (pow_left_inj₀ hρ.le hρ'.le two_ne_zero).mp hsquare
  rw [hlength] at hcos hsin
  exact exists_turns_of_cos_eq_of_sin_eq (mul_left_cancel₀ hρ'.ne' hcos)
    (mul_left_cancel₀ hρ'.ne' hsin)

/-! ## Mixed vectors -/

section Vectors

variable [lib : Circular ℝ] (hlib : lib.Directional)

include hlib

theorem mixSin_eq (l : Lookup ℝ) (c : Corners ℝ) :
    c.mixSin l = (c.map fun a => Real.sin (radians a)).mix l := by
  simp only [Corners.mixSin, toSingle_eq, toRadians_eq hlib, hlib.sin_eq]

theorem mixCos_eq (l : Lookup ℝ) (c : Corners ℝ) :
    c.mixCos l = (c.map fun a => Real.cos (radians a)).mix l := by
  simp only [Corners.mixCos, toSingle_eq, toRadians_eq hlib, hlib.cos_eq]

theorem mixSin_map_add (l : Lookup ℝ) (c : Corners ℝ) (d : ℝ) :
    (c.map (· + d)).mixSin l =
      Real.cos (radians d) * c.mixSin l + Real.sin (radians d) * c.mixCos l := by
  simp only [mixSin_eq hlib, mixCos_eq hlib, Corners.mix, Corners.map, radians_add, Real.sin_add,
    mix_eq]
  ring

theorem mixCos_map_add (l : Lookup ℝ) (c : Corners ℝ) (d : ℝ) :
    (c.map (· + d)).mixCos l =
      Real.cos (radians d) * c.mixCos l - Real.sin (radians d) * c.mixSin l := by
  simp only [mixSin_eq hlib, mixCos_eq hlib, Corners.mix, Corners.map, radians_add, Real.cos_add,
    mix_eq]
  ring

/-- The directions of a mixed vector and of that of the turned corners differ by the angle. -/
theorem exists_turns_of_combine (w : Discontinuity) (l : Lookup ℝ) (c : Corners ℝ) (d : ℝ)
    (hne : (c.mixCos l, c.mixSin l) ≠ 0) :
    ∃ n : ℤ, w.combine ((c.map (· + d)).mixSin l) ((c.map (· + d)).mixCos l) =
      w.combine (c.mixSin l) (c.mixCos l) + d + n * 360 := by
  obtain ⟨ρ, hρ, hcos, hsin⟩ := combine_direction hlib w hne
  set u := w.combine (c.mixSin l) (c.mixCos l)
  have hturnedCos : (c.map (· + d)).mixCos l = ρ * Real.cos (radians (u + d)) := by
    rw [mixCos_map_add hlib, hcos, hsin, radians_add, Real.cos_add]
    ring
  have hturnedSin : (c.map (· + d)).mixSin l = ρ * Real.sin (radians (u + d)) := by
    rw [mixSin_map_add hlib, hcos, hsin, radians_add, Real.sin_add]
    ring
  have hturnedNe : ((c.map (· + d)).mixCos l, (c.map (· + d)).mixSin l) ≠ 0 := by
    rw [hturnedCos, hturnedSin]
    exact direction_ne_zero hρ _
  obtain ⟨ρ', hρ', hcos', hsin'⟩ := combine_direction hlib w hturnedNe
  exact exists_turns_of_polar_eq hρ' hρ (hcos'.symm.trans hturnedCos) (hsin'.symm.trans hturnedSin)

end Vectors

/-! ## Grids -/

section Grids

variable {g : Grid ℝ} {d : ℝ} {k : ℕ → ℤ}

/-- What does not see whole turns is computed of the samples turned by the angle alone. -/
theorem map_samples_turned {f : ℝ → ℝ} (hf : ∀ (v : ℝ) (n : ℤ), f (v + n * 360) = f v) :
    (g.turned d k).samples.map f = (g.samples.map (· + d)).map f := by
  apply Array.ext
  · simp [Grid.turned]
  · intro p _ _
    simp [Grid.turned, hf]

theorem turned_consistent (h : g.Consistent) : (g.turned d k).Consistent := by
  have hsize : (g.turned d k).samples.size = g.samples.size := Array.size_mapIdx
  exact ⟨hsize ▸ h.valid⟩

variable [lib : Circular ℝ] (hlib : lib.Directional)

include hlib

theorem components_turned :
    (g.turned d k).components = (g.component (g.samples.map (· + d))).components := by
  have hsin := map_samples_turned (g := g) (d := d) (k := k)
    (f := fun v => Real.sin (radians v)) fun v n => by
      rw [radians_add_turns, Real.sin_add_int_mul_two_pi]
  have hcos := map_samples_turned (g := g) (d := d) (k := k)
    (f := fun v => Real.cos (radians v)) fun v n => by
      rw [radians_add_turns, Real.cos_add_int_mul_two_pi]
  rw [components_eq hlib, components_eq hlib, hsin, hcos]
  rfl

variable [Decomposition ℝ]

theorem valueAt_turned_eq (hangular : g.discontinuity.isAngular) (x y : ℝ) :
    (g.turned d k).sampler.valueAt x y =
      (g.cornerSamples (g.geometry.lookup x y)).map fun c =>
        g.discontinuity.combine ((c.map (· + d)).mixSin (g.geometry.lookup x y))
          ((c.map (· + d)).mixCos (g.geometry.lookup x y)) := by
  have hangular' : (g.turned d k).sampler.grid.discontinuity.isAngular := hangular
  rw [Sampler.valueAt_of_isAngular hangular', Grid.components_sampler, components_turned hlib,
    Grid.components_mixAtPlace]
  have hcorners := g.cornerSamples_component_map (· + d) (g.geometry.lookup x y)
  exact (congrArg _ hcorners).trans (map_map _ _ _)

/-- Turning all samples of a grid of angles by one angle turns its answers by that angle, and whole
turns of single samples turn none, wherever the vector mixed of them has a direction. -/
theorem valueAt_turned (hangular : g.discontinuity.isAngular) (d : ℝ) (k : ℕ → ℤ) :
    (∀ x y s c, g.components.sin.mixAtPlace x y = .ok s → g.components.cos.mixAtPlace x y = .ok c →
        (c, s) ≠ 0 →
        ∃ a b, g.sampler.valueAt x y = .ok a ∧ (g.turned d k).sampler.valueAt x y = .ok b ∧
          ∃ n : ℤ, b = a + d + n * 360) ∧
      (∀ x y, (g.turned 0 k).sampler.valueAt x y = g.sampler.valueAt x y) ∧
      (g.Consistent → (g.turned d k).Consistent ∧
        ∀ x y, ∃ s c, g.components.sin.mixAtPlace x y = .ok s ∧
          g.components.cos.mixAtPlace x y = .ok c) := by
  refine ⟨?_, ?_, ?_⟩
  · intro x y s c hs hc hne
    rw [Grid.sin_mixAtPlace, map_eq_ok] at hs
    obtain ⟨corners, hcorners, rfl⟩ := hs
    rw [Grid.cos_mixAtPlace, hcorners] at hc
    obtain rfl := Except.ok.inj hc
    refine ⟨_, _, ?_, ?_, exists_turns_of_combine hlib g.discontinuity _ corners d hne⟩
    · rw [Grid.valueAt_of_angular hangular, hcorners]
      rfl
    · rw [valueAt_turned_eq hlib hangular, hcorners]
      rfl
  · intro x y
    rw [valueAt_turned_eq hlib hangular, Grid.valueAt_of_angular hangular]
    simp only [Corners.map, add_zero]
  · intro h
    refine ⟨turned_consistent h, ?_⟩
    intro x y
    obtain ⟨s, hs⟩ := h.components.1.exists_mixAtPlace x y
    obtain ⟨c, hc⟩ := h.components.2.exists_mixAtPlace x y
    exact ⟨s, c, hs, hc⟩

end Grids

/-- Four directions on both sides of the place where they wrap, all turned to one side of it. -/
theorem valueAt_turned_off_wrap :
    let _ : Circular ℝ := ⟨Real.pi, Real.sin, Real.cos, fun y x => Complex.arg ⟨x, y⟩⟩
    let _ : Decomposition ℝ := ⟨fun _ => 0, fun _ _ => 0, fun _ => none⟩
    let g : Grid ℝ := ⟨"azimuth", none, none, ⟨⟨2, 1 / 2, 2⟩, ⟨2, 1 / 2, 2⟩⟩,
      #[170, -170, 175, -175], .at180⟩
    ∃ a b, g.sampler.valueAt 1 (3 / 4) = .ok a ∧
      (g.turned 30 fun p => p - 2).sampler.valueAt 1 (3 / 4) = .ok b ∧
      ∃ n : ℤ, b = a + 30 + n * 360 := by
  intro lib _ g
  have hlib : lib.Directional := Circular.directional_arg
  have h : g.Consistent :=
    ⟨⟨le_rfl, le_rfl, rfl, by decide, hasPositiveSpacing_of_pos two_pos,
      hasPositiveSpacing_of_pos two_pos, rfl, rfl⟩⟩
  have hcorners : g.corners 1 (3 / 4) = [170, -170, 175, -175] :=
    Grid.corners_of_one_cell rfl rfl _ _
  -- the four lie on an arc of twenty degrees, so what is mixed of them is not zero
  obtain ⟨s, c, hs, hc, hhull⟩ := exists_inHull_corners hlib h 1 (3 / 4)
  have hne : (c, s) ≠ 0 := by
    refine hhull.ne_zero (a := 170) (d := 20) (by norm_num) (by norm_num) ?_
    rw [hcorners]
    simp only [List.forall_mem_cons, List.not_mem_nil, false_implies, implies_true, and_true]
    refine ⟨⟨0, ?_⟩, ⟨1, ?_⟩, ⟨0, ?_⟩, ⟨1, ?_⟩⟩ <;> constructor <;> norm_num
  obtain ⟨hturned, -, -⟩ := valueAt_turned hlib (g := g) rfl 30 fun p => p - 2
  exact hturned _ _ s c hs hc hne

end Exact

end TiePoints
