import TiePoints.Proofs.Exact.Parabola

/-!
# Grids on a quadratic surface

One surface is fitted to all samples of a grid, taken row by row.  Three columns
and three rows tell quadratic surfaces apart: along each of three rows they are
parabolas, whose coefficients are parabolas across the rows.  Samples that lie
on a surface then give it back.  With two columns or two rows only, what comes
nearest to the samples still holds all of them.
-/

namespace TiePoints.Exact

open Matrix LeastSquares

variable {K : Type} [Field K] [LinearOrder K] [FloorRing K]

/-! ## Surfaces -/

/-- The value at a place of the quadratic surface with these coefficients. -/
def quadric (a : Fin 6 → K) (x y : K) : K :=
  a 0 + a 1 * x + a 2 * y + a 3 * x ^ 2 + a 4 * x * y + a 5 * y ^ 2

theorem eval_surface_ofVector (c : Vector K 6) (x y : K) :
    (Surface.ofVector c).eval x y = quadric c.get x y := by
  rw [quadric, sq, sq, ← mul_assoc, ← mul_assoc]
  rfl

theorem surfaceDesign_toMatrix (g : Geometry K) {n : ℕ} (k : Fin n) :
    (g.surfaceDesign n).toMatrix k =
      let x := g.x.position (k % g.x.points)
      let y := g.y.position (k / g.x.points)
      ![1, x, y, x * x, x * y, y * y] := by
  funext j
  fin_cases j
  · exact (Vector.getElem_ofFn _).trans one_eq
  all_goals exact Vector.getElem_ofFn _

theorem surfaceDesign_mulVec (g : Geometry K) {n : ℕ} (c : Fin 6 → K) (k : Fin n) :
    ((g.surfaceDesign n).toMatrix *ᵥ c) k =
      quadric c (g.x.position (k % g.x.points)) (g.y.position (k / g.x.points)) := by
  rw [mulVec, surfaceDesign_toMatrix, quadric]
  simp [dotProduct, Fin.sum_univ_six]
  ring

/-- Along a row a surface is a parabola. -/
theorem quadric_eq_parabola (a : Fin 6 → K) (x y : K) :
    quadric a x y =
      parabola ![parabola ![a 0, a 2, a 5] y, parabola ![a 1, a 4, 0] y, a 3] x := by
  simp [quadric, parabola]
  ring

variable [IsStrictOrderedRing K]

/-- Three points on each of two axes tell surfaces apart. -/
theorem quadric_injective {u v : Axis K} (hu : u.hasPositiveSpacing) (hv : v.hasPositiveSpacing)
    {a b : Fin 6 → K}
    (heq : ∀ i < 3, ∀ j < 3, quadric a (u.position i) (v.position j) =
      quadric b (u.position i) (v.position j)) : a = b := by
  have hrow : ∀ j < 3,
      ![parabola ![a 0, a 2, a 5] (v.position j), parabola ![a 1, a 4, 0] (v.position j), a 3] =
        ![parabola ![b 0, b 2, b 5] (v.position j), parabola ![b 1, b 4, 0] (v.position j),
          b 3] := by
    intro j hj
    apply parabola_injective hu
    intro i hi
    rw [← quadric_eq_parabola, ← quadric_eq_parabola, heq i hi j hj]
  have hconstant : ![a 0, a 2, a 5] = ![b 0, b 2, b 5] :=
    parabola_injective hv fun j hj => congrFun (hrow j hj) 0
  have hlinear : ![a 1, a 4, 0] = ![b 1, b 4, 0] :=
    parabola_injective hv fun j hj => congrFun (hrow j hj) 1
  funext k
  fin_cases k
  · exact congrFun hconstant 0
  · exact congrFun hlinear 0
  · exact congrFun hconstant 1
  · exact congrFun (hrow 0 three_pos) 2
  · exact congrFun hlinear 1
  · exact congrFun hconstant 2

/-! ## Fits of grids -/

section Fits

variable [Decomposition K] [Circular K] {g : Grid K} (h : g.Consistent)
  (hsolve : FindsNearest (scaled (g.geometry.surfaceDesign g.geometry.sampleCount)))

include h hsolve

/-- The answers of a grid are those of a surface that comes nearest to its samples. -/
theorem exists_valueAtMode_biquadratic :
    ∃ c : Fin 6 → K, Minimises (g.geometry.surfaceDesign g.geometry.sampleCount).toMatrix
        (fun k => g.node (k % g.width) (k / g.width)) c ∧
      ∀ x y, g.sampler.valueAtMode x y .biquadratic = .ok (quadric c x y) := by
  have hsize : g.samples.size = g.geometry.sampleCount := h.valid.samples_eq
  have hne : (g.geometry.surfaceDesign g.geometry.sampleCount).toMatrix ≠ 0 := by
    intro hzero
    have hfirst : 0 < g.geometry.sampleCount := by
      rw [← hsize, h.size_eq]
      exact Nat.mul_pos (Nat.lt_of_lt_of_le Nat.two_pos h.width_ge)
        (Nat.lt_of_lt_of_le Nat.two_pos h.height_ge)
    have hentry := surfaceDesign_mulVec g.geometry ![1, 0, 0, 0, 0, 0]
      (⟨0, hfirst⟩ : Fin g.geometry.sampleCount)
    rw [hzero, zero_mulVec] at hentry
    simp [quadric] at hentry
  obtain ⟨c, hc, -, hnearest⟩ := leastSquares_of_findsNearest hne hsolve ⟨g.samples, hsize⟩
  refine ⟨c.get, ?_, ?_⟩
  · convert hnearest using 1
    funext k
    have hk : (k : ℕ) < g.samples.size := by
      rw [hsize]
      exact k.isLt
    rw [Grid.node, Nat.mod_add_div', Array.getElem?_eq_getElem hk]
    rfl
  · intro x y
    rw [← eval_surface_ofVector]
    have hcount : g.geometry.countSamples = .ok g.geometry.sampleCount :=
      Index.mul_eq_of_lt (lt_of_eq_of_lt hsize.symm h.size_lt)
    have hfit : g.fitSurface = .ok (.ofVector c) :=
      bind_eq_ok.mpr ⟨_, hcount, bind_eq_ok.mpr ⟨_, layOut_eq _ _, bind_eq_ok.mpr ⟨c, hc, rfl⟩⟩⟩
    simp only [Sampler.valueAtMode, Sampler.interpolant, Grid.surface_sampler, hfit]
    rfl

/-- A grid that holds the values of a quadratic surface answers with the surface at its tie points,
and everywhere if it has three columns and three rows.  Where angles wrap plays no part. -/
theorem valueAtMode_biquadratic_of_surface {a : Fin 6 → K}
    (ha : ∀ c < g.width, ∀ r < g.height,
      g.sample c r = .ok (quadric a (g.geometry.x.position c) (g.geometry.y.position r))) :
    (∀ c < g.width, ∀ r < g.height,
      g.sampler.valueAtMode (g.geometry.x.position c) (g.geometry.y.position r) .biquadratic =
        .ok (quadric a (g.geometry.x.position c) (g.geometry.y.position r))) ∧
    (3 ≤ g.width → 3 ≤ g.height →
      ∀ x y, g.sampler.valueAtMode x y .biquadratic = .ok (quadric a x y)) := by
  obtain ⟨b, hnearest, hvalue⟩ := exists_valueAtMode_biquadratic h hsolve
  have hwidth : 0 < g.width := Nat.lt_of_lt_of_le Nat.two_pos h.width_ge
  have hcount : g.geometry.sampleCount = g.width * g.height :=
    h.valid.samples_eq.symm.trans h.size_eq
  have hexact : (g.geometry.surfaceDesign g.geometry.sampleCount).toMatrix *ᵥ a =
      fun k : Fin g.geometry.sampleCount => g.node (k % g.width) (k / g.width) := by
    funext k
    have hk : (k : ℕ) < g.width * g.height := hcount ▸ k.isLt
    have hc := Nat.mod_lt k hwidth
    have hr := Nat.div_lt_of_lt_mul hk
    have hsample := ha _ hc _ hr
    rw [h.sample_eq hc hr] at hsample
    rw [surfaceDesign_mulVec, Except.ok.inj hsample]
    rfl
  have htie : ∀ c < g.width, ∀ r < g.height,
      quadric b (g.geometry.x.position c) (g.geometry.y.position r) =
        quadric a (g.geometry.x.position c) (g.geometry.y.position r) := by
    intro c hc r hr
    have hlt : c + r * g.width < g.geometry.sampleCount := by
      rw [hcount]
      exact rowMajor_lt hc hr
    have hentry := congrFun ((hnearest.mulVec_eq_of_exists hexact).trans hexact.symm) ⟨_, hlt⟩
    have hmod : (c + r * g.width) % g.geometry.x.points = c := rowMajor_mod hc r
    have hdiv : (c + r * g.width) / g.geometry.x.points = r := rowMajor_div hc r
    rwa [surfaceDesign_mulVec, surfaceDesign_mulVec, hmod, hdiv] at hentry
  refine ⟨?_, ?_⟩
  · intro c hc r hr
    rw [hvalue, htie c hc r hr]
  · intro hw hh x y
    have hcoeff : b = a := quadric_injective h.valid.spacing_x h.valid.spacing_y
      fun i hi j hj => htie i (by omega) j (by omega)
    rw [hvalue, hcoeff]

end Fits

/-- Three columns and three rows around the origin are far from dependence. -/
theorem apartBy_surfaceDesign :
    Spectral.ApartBy (1 / 4)
      ((⟨⟨3, -1, 1⟩, ⟨3, -1, 1⟩⟩ : Geometry ℝ).surfaceDesign 9).toMatrix := by
  set A : Matrix (Fin 9) (Fin 6) ℝ :=
    ((⟨⟨3, -1, 1⟩, ⟨3, -1, 1⟩⟩ : Geometry ℝ).surfaceDesign 9).toMatrix
  have hvalues : ∀ w : Fin 6 → ℝ, A *ᵥ w =
      ![quadric w (-1) (-1), quadric w 0 (-1), quadric w 1 (-1), quadric w (-1) 0, quadric w 0 0,
        quadric w 1 0, quadric w (-1) 1, quadric w 0 1, quadric w 1 1] := by
    intro w
    funext k
    rw [surfaceDesign_mulVec]
    fin_cases k <;> norm_num [position_eq]
  intro w
  simp only [← mulVec_single_one, hvalues]
  simp [dotProduct, Fin.sum_univ_succ, quadric]
  nlinarith [sq_nonneg (w 0 + 32 / 45 * (w 3 + w 5)), sq_nonneg (w 3 + w 5),
    sq_nonneg (w 3 - w 5), sq_nonneg (w 1), sq_nonneg (w 2), sq_nonneg (w 4)]

/-- Nine tie points around the origin, and a place far from them. -/
theorem valueAtMode_biquadratic_of_nine_points :
    let _ : Circular ℝ := ⟨Real.pi, Real.sin, Real.cos, fun y x => Complex.arg ⟨x, y⟩⟩
    let _ : Decomposition ℝ := Spectral.solver
    let g : Grid ℝ := ⟨"latitude", none, none, ⟨⟨3, -1, 1⟩, ⟨3, -1, 1⟩⟩,
      #[11, 4, 5, 3, 1, 7, 7, 10, 21], .none⟩
    g.sampler.valueAtMode 10 (-20) .biquadratic = .ok 1761 := by
  intro _ _ g
  have h : g.Consistent :=
    ⟨⟨by decide, by decide, rfl, by decide, hasPositiveSpacing_of_pos one_pos,
      hasPositiveSpacing_of_pos one_pos, rfl, rfl⟩⟩
  have hsolve : FindsNearest (scaled (g.geometry.surfaceDesign g.geometry.sampleCount)) :=
    Spectral.findsNearest_of_apartBy (d := g.geometry.surfaceDesign 9) (by norm_num)
      apartBy_surfaceDesign
  have hquadric : ∀ x y : ℝ, quadric ![1, 2, 3, 4, 5, 6] x y =
      1 + 2 * x + 3 * y + 4 * x ^ 2 + 5 * x * y + 6 * y ^ 2 := fun _ _ => rfl
  have hsamples : ∀ c < g.width, ∀ r < g.height, g.sample c r = .ok (quadric ![1, 2, 3, 4, 5, 6]
      (g.geometry.x.position c) (g.geometry.y.position r)) := by
    intro c hc r hr
    rw [h.sample_eq hc hr, hquadric]
    have hc : c < 3 := hc
    have hr : r < 3 := hr
    interval_cases c <;> interval_cases r <;>
      norm_num [g, Grid.node, Grid.width, position_eq]
  obtain ⟨-, hvalue⟩ := valueAtMode_biquadratic_of_surface h hsolve hsamples
  rw [hvalue le_rfl le_rfl, hquadric]
  norm_num

end TiePoints.Exact
