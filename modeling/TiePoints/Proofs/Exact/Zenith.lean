import Mathlib.Analysis.SpecialFunctions.Complex.Arg
import TiePoints.Proofs.Block.PointQueries
import TiePoints.Proofs.Checked.Derivations
import TiePoints.Proofs.Exact.Surface

/-!
# Elevations and zenith angles

The zenith angle is what an elevation lacks of 90 degrees, and so it is between
the tie points.  Bilinear weights add up to one, so a mixture of complements is
the complement of the mixture.  A fit by least squares moves with its samples: of
the polynomials that come nearest to the complements one is the complement of
that which comes nearest to the samples.  Three columns, or three columns and
three rows, leave no other.
-/

namespace TiePoints.Exact

open Matrix LeastSquares

variable {K : Type} [Field K] [LinearOrder K] [FloorRing K]

/-- What an angle lacks of 90 degrees. -/
def complement (a : K) : K := (90 : ℕ) - a

/-- The grid of the complements of the samples, which does not wrap. -/
def complements (g : Grid K) : Grid K :=
  (g.component (g.samples.map complement)).describedAs g

theorem complement_complement (a : K) : complement (complement a) = a := sub_sub_cancel _ a

theorem mix_complement (wx wy v00 v10 v01 v11 : K) :
    mix wx wy (complement v00) (complement v10) (complement v01) (complement v11) =
      complement (mix wx wy v00 v10 v01 v11) := by
  simp only [mix_eq, complement]
  ring

section Grids

variable {g : Grid K}

theorem zenith_eq_complements (h : g.Consistent) : g.zenith = .ok (complements g) := h.zenith_eq

theorem complements_consistent (h : g.Consistent) : (complements g).Consistent :=
  (h.component (by simp)).describedAs

theorem node_complements (h : g.Consistent) {i j : ℕ} (hi : i < g.width) (hj : j < g.height) :
    (complements g).node i j = complement (g.node i j) :=
  h.node_component_map hi hj complement

theorem complements_complements (hd : g.discontinuity = .none) :
    complements (complements g) = g := by
  have hsamples : (g.samples.map complement).map complement = g.samples := by
    rw [Array.map_map]
    exact Array.map_id'' complement_complement _
  obtain ⟨name, unit, description, geometry, samples, d⟩ := g
  obtain rfl : d = .none := hd
  exact congrArg (Grid.mk name unit description geometry · .none) hsamples

end Grids

/-! ## Answers -/

/-- The answers of the second grid in the mode are the complements of those of the first. -/
def AnswersComplement [Circular K] [Decomposition K] (g z : Grid K) (m : Mode) : Prop :=
  ∀ x y, ∃ v, g.sampler.valueAtMode x y m = .ok v ∧
    z.sampler.valueAtMode x y m = .ok (complement v)

theorem answersComplement_bilinear [Circular K] [Decomposition K] {g : Grid K} (h : g.Consistent)
    (hd : g.discontinuity = .none) : AnswersComplement g (complements g) .bilinear := by
  intro x y
  have hanswer := h.mixAtPlace_component_map complement x y
  rw [mix_complement] at hanswer
  refine ⟨_, (Grid.valueAt_of_plain hd x y).trans (h.mixAtPlace_eq x y), ?_⟩
  exact (Grid.valueAt_of_plain rfl x y).trans hanswer

theorem parabola_reflection (a : K) (c : Fin 3 → K) (x : K) :
    parabola (![a, 0, 0] - c) x = a - parabola c x := by
  simp [parabola]
  ring

theorem quadric_reflection (a : K) (c : Fin 6 → K) (x y : K) :
    quadric (![a, 0, 0, 0, 0, 0] - c) x y = a - quadric c x y := by
  simp [quadric]
  ring

variable [IsStrictOrderedRing K]

theorem rowDesign_injective {g : Geometry K} (hspacing : g.x.hasPositiveSpacing)
    (hpoints : 3 ≤ g.x.points) :
    Function.Injective fun c => g.rowDesign.toMatrix *ᵥ c := by
  intro c c' heq
  apply parabola_injective hspacing
  intro i hi
  have hentry := congrFun heq ⟨i, by omega⟩
  simp only [rowDesign_mulVec] at hentry
  exact hentry

theorem surfaceDesign_injective {g : Geometry K} {n : ℕ} (hx : g.x.hasPositiveSpacing)
    (hy : g.y.hasPositiveSpacing) (hcolumns : 3 ≤ g.x.points) (hrows : 3 ≤ g.y.points)
    (hn : n = g.x.points * g.y.points) :
    Function.Injective fun c => (g.surfaceDesign n).toMatrix *ᵥ c := by
  intro c c' heq
  apply quadric_injective hx hy
  intro i hi j hj
  have hi : i < g.x.points := by omega
  have hj : j < g.y.points := by omega
  have hentry := congrFun heq ⟨i + j * g.x.points, hn ▸ rowMajor_lt hi hj⟩
  simp only [surfaceDesign_mulVec, rowMajor_mod hi, rowMajor_div hi] at hentry
  exact hentry

section Modes

variable [Decomposition K] [Circular K] {g : Grid K} (h : g.Consistent)

include h

theorem answersComplement_quadratic (hwidth : 3 ≤ g.width)
    (hsolve : FindsNearest (scaled g.geometry.rowDesign)) :
    AnswersComplement g (complements g) .quadratic := by
  intro x y
  obtain ⟨c, hc, hvalue⟩ := exists_valueAtMode_quadratic h hsolve y
  obtain ⟨c', hc', hvalue'⟩ := exists_valueAtMode_quadratic (complements_consistent h) hsolve y
  set r := g.geometry.y.pointBefore y
  have hrow : r < g.height := Axis.pointBefore_lt (Nat.lt_of_lt_of_le Nat.two_pos h.height_ge) y
  have hreflected : c' = ![((90 : ℕ) : K), 0, 0] - c := by
    apply hc.eq_reflection (rowDesign_injective h.valid.spacing_x hwidth) hc'
    intro i
    refine (node_complements h i.isLt hrow).trans ?_
    rw [rowDesign_mulVec]
    simp [parabola, complement]
  refine ⟨_, hvalue x, ?_⟩
  rw [hvalue', hreflected, parabola_reflection]
  rfl

theorem answersComplement_biquadratic (hwidth : 3 ≤ g.width) (hheight : 3 ≤ g.height)
    (hsolve : FindsNearest (scaled (g.geometry.surfaceDesign g.geometry.sampleCount))) :
    AnswersComplement g (complements g) .biquadratic := by
  intro x y
  obtain ⟨c, hc, hvalue⟩ := exists_valueAtMode_biquadratic h hsolve
  obtain ⟨c', hc', hvalue'⟩ := exists_valueAtMode_biquadratic (complements_consistent h) hsolve
  have hcount : g.geometry.sampleCount = g.width * g.height :=
    h.valid.samples_eq.symm.trans h.size_eq
  have hreflected : c' = ![((90 : ℕ) : K), 0, 0, 0, 0, 0] - c := by
    apply hc.eq_reflection
      (surfaceDesign_injective h.valid.spacing_x h.valid.spacing_y hwidth hheight hcount) hc'
    intro k
    have hk : (k : ℕ) < g.width * g.height := hcount ▸ k.isLt
    obtain ⟨hcolumn, hrow⟩ := rowMajor_place_lt hk
    refine (node_complements h hcolumn hrow).trans ?_
    rw [surfaceDesign_mulVec]
    simp [quadric, complement]
  refine ⟨_, hvalue x y, ?_⟩
  rw [hvalue', hreflected, quadric_reflection]
  rfl

/-- A plain grid of elevations has a grid of zenith angles, whose zenith angles are the elevations
again.  In each mode it answers with the complement of the elevation, whatever the samples are: a
mode that fits polynomials needs as many columns, and rows, as tell these apart. -/
theorem zenith_answersComplement (hd : g.discontinuity = .none) :
    ∃ z, g.zenith = .ok z ∧ z.zenith = .ok g ∧ AnswersComplement g z .bilinear ∧
      (3 ≤ g.width → FindsNearest (scaled g.geometry.rowDesign) →
        AnswersComplement g z .quadratic) ∧
      (3 ≤ g.width → 3 ≤ g.height →
        FindsNearest (scaled (g.geometry.surfaceDesign g.geometry.sampleCount)) →
        AnswersComplement g z .biquadratic) := by
  refine ⟨complements g, zenith_eq_complements h, ?_, answersComplement_bilinear h hd,
    answersComplement_quadratic h, answersComplement_biquadratic h⟩
  rw [zenith_eq_complements (complements_consistent h), complements_complements hd]

end Modes

/-- Elevations at nine tie points that lie on no surface. -/
theorem zenith_answersComplement_of_nine_points :
    let _ : Circular ℝ := ⟨Real.pi, Real.sin, Real.cos, fun y x => Complex.arg ⟨x, y⟩⟩
    let _ : Decomposition ℝ := Spectral.solver
    let g : Grid ℝ := ⟨"elevation", some "deg", none, ⟨⟨3, -1, 1⟩, ⟨3, -1, 1⟩⟩,
      #[10, 40, 5, 80, 33, 2, 7, 61, 24], .none⟩
    ∃ z, g.zenith = .ok z ∧ z.zenith = .ok g ∧ AnswersComplement g z .bilinear ∧
      AnswersComplement g z .quadratic ∧ AnswersComplement g z .biquadratic := by
  intro _ _ g
  have h : g.Consistent :=
    ⟨⟨by decide, by decide, rfl, by decide, hasPositiveSpacing_of_pos one_pos,
      hasPositiveSpacing_of_pos one_pos, rfl, rfl⟩⟩
  have hrows : FindsNearest (scaled g.geometry.rowDesign) :=
    Spectral.findsNearest_of_apartBy (by norm_num [g]) (apartBy_rowDesign _)
  have hsurface : FindsNearest (scaled (g.geometry.surfaceDesign g.geometry.sampleCount)) :=
    Spectral.findsNearest_of_apartBy (d := g.geometry.surfaceDesign 9) (by norm_num)
      apartBy_surfaceDesign
  obtain ⟨z, hz, hback, hbilinear, hquadratic, hbiquadratic⟩ := zenith_answersComplement h rfl
  exact ⟨z, hz, hback, hbilinear, hquadratic le_rfl hrows, hbiquadratic le_rfl le_rfl hsurface⟩

end TiePoints.Exact
