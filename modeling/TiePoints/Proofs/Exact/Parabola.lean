import Mathlib.Algebra.Polynomial.Eval.Degree
import Mathlib.Analysis.SpecialFunctions.Complex.Arg
import Mathlib.LinearAlgebra.Vandermonde
import Mathlib.Tactic.ComputeDegree
import TiePoints.Proofs.Exact.Cell
import TiePoints.Proofs.LeastSquares.Nearest
import TiePoints.Proofs.Result
import TiePoints.Sampler

/-!
# Rows on a parabola

The parabola of a row is fitted to its samples alone.  Three columns or more
tell parabolas apart, so samples that lie on one give it back, and the row is
continued by it on both sides.  Two columns leave parabolas open, but some of
them hold both samples, and what comes nearest to the samples is among these.
-/

namespace TiePoints.Exact

open Matrix LeastSquares

variable {K : Type} [Field K] [LinearOrder K] [FloorRing K]

/-! ## Places on an axis -/

/-- Rows are selected by the whole part of the index, held between the first and the last. -/
theorem pointBefore_eq {a : Axis K} (hpos : 0 < a.points) (hlimit : a.points ≤ Index.limit)
    (s : K) :
    (a.pointBefore s : ℤ) = max 0 (min ⌊(s - a.offset) / a.spacing⌋ (a.points - 1)) := by
  have hindex : Scalar.floorIndex (a.fractionalIndex s) =
      min ⌊(s - a.offset) / a.spacing⌋.toNat (Index.limit - 1) := by
    rw [floorIndex_eq, Int.floor_toNat]
    rfl
  rw [Axis.pointBefore, hindex]
  omega

theorem position_injective [IsStrictOrderedRing K] {a : Axis K} (h : a.hasPositiveSpacing) :
    Function.Injective a.position := by
  intro i j hij
  have hspacing := (spacing_pos_of_hasPositiveSpacing h).ne'
  rw [position_eq, position_eq, add_right_inj] at hij
  exact Nat.cast_injective (mul_right_cancel₀ hspacing hij)

/-! ## Parabolas -/

/-- The value at `x` of the polynomial with these coefficients. -/
def parabola (c : Fin 3 → K) (x : K) : K := c 0 + c 1 * x + c 2 * x ^ 2

theorem eval_ofVector (c : Vector K 3) (x : K) :
    (Parabola.ofVector c).eval x = parabola c.get x := by
  rw [parabola, sq, ← mul_assoc]
  rfl

theorem rowDesign_toMatrix (g : Geometry K) (i : Fin g.x.points) :
    g.rowDesign.toMatrix i = ![1, g.x.position i, g.x.position i * g.x.position i] := by
  funext j
  fin_cases j
  · exact (Vector.getElem_ofFn _).trans one_eq
  · exact Vector.getElem_ofFn _
  · exact Vector.getElem_ofFn _

theorem rowDesign_mulVec (g : Geometry K) (c : Fin 3 → K) (i : Fin g.x.points) :
    (g.rowDesign.toMatrix *ᵥ c) i = parabola c (g.x.position i) := by
  rw [mulVec, rowDesign_toMatrix, parabola]
  simp [dotProduct, Fin.sum_univ_three]
  ring

theorem eval_eq_parabola {p : Polynomial K} (hp : p.natDegree ≤ 2) (x : K) :
    p.eval x = parabola (fun k => p.coeff k) x := by
  rw [Polynomial.eval_eq_sum_range' (Nat.lt_succ_of_le hp), parabola]
  simp [Finset.sum_range_succ]

/-- Three points of an axis tell parabolas apart. -/
theorem parabola_injective [IsStrictOrderedRing K] {a : Axis K} (h : a.hasPositiveSpacing)
    {c c' : Fin 3 → K}
    (heq : ∀ i < 3, parabola c (a.position i) = parabola c' (a.position i)) : c = c' := by
  have hpoints : Function.Injective fun i : Fin 3 => a.position i :=
    (position_injective h).comp Fin.val_injective
  rw [← sub_eq_zero]
  apply eq_zero_of_forall_index_sum_mul_pow_eq_zero hpoints
  intro i
  have hi := heq i i.isLt
  simp only [parabola] at hi
  simp only [Fin.sum_univ_three, Pi.sub_apply]
  simp
  linear_combination hi

/-- Some parabola, such as the line, holds the values of two points. -/
theorem exists_parabola [IsStrictOrderedRing K] {a : Axis K} (h : a.hasPositiveSpacing)
    (v : ℕ → K) : ∃ c, ∀ i < 2, parabola c (a.position i) = v i := by
  have hspacing := (spacing_pos_of_hasPositiveSpacing h).ne'
  refine ⟨![v 0 - (v 1 - v 0) / a.spacing * a.offset, (v 1 - v 0) / a.spacing, 0], ?_⟩
  intro i hi
  rw [position_eq, parabola]
  interval_cases i
  · simp
  · simp
    field_simp
    ring

/-! ## Fits of rows -/

theorem layOut_eq (rows columns : ℕ) : (layOut rows columns : Except (Error K) Unit) = .ok () :=
  if_pos (lt_of_eq_of_lt (Nat.mul_zero _) (by decide))

section Rows

variable [IsStrictOrderedRing K] [Decomposition K] {g : Grid K} (h : g.Consistent)
  (hsolve : FindsNearest (scaled g.geometry.rowDesign))

include h hsolve

/-- Each row has a parabola that comes nearest to its samples. -/
theorem exists_fitRow {r : ℕ} (hr : r < g.height) :
    ∃ c : Vector K 3, g.fitRow r = .ok (.ofVector c) ∧
      Minimises g.geometry.rowDesign.toMatrix (fun i => g.node i r) c.get := by
  have hpoints : 2 ≤ g.geometry.x.points := h.width_ge
  have hne : g.geometry.rowDesign.toMatrix ≠ 0 := by
    intro hzero
    have hentry := rowDesign_mulVec g.geometry ![1, 0, 0] ⟨0, by omega⟩
    rw [hzero, zero_mulVec] at hentry
    simp [parabola] at hentry
  have hsamples : g.rowSamples r = .ok ((List.range g.width).map fun c => g.node c r) :=
    mapM_eq_ok_map fun _ hc => h.sample_eq (List.mem_range.mp hc) hr
  have hsize : ((List.range g.width).map fun c => g.node c r).toArray.size = g.geometry.x.points :=
    (List.length_map _).trans List.length_range
  obtain ⟨c, hc, -, hnearest⟩ := leastSquares_of_findsNearest hne hsolve ⟨_, hsize⟩
  refine ⟨c, bind_eq_ok.mpr ⟨_, hsamples, bind_eq_ok.mpr ⟨c, hc, rfl⟩⟩, ?_⟩
  convert hnearest using 1
  funext i
  simp [Vector.get]

variable [Circular K]

/-- The answers of a row are those of its parabola. -/
theorem exists_valueAtMode_quadratic (y : K) :
    ∃ c : Fin 3 → K, Minimises g.geometry.rowDesign.toMatrix
        (fun i => g.node i (g.geometry.y.pointBefore y)) c ∧
      ∀ x, g.sampler.valueAtMode x y .quadratic = .ok (parabola c x) := by
  have hfit : ∀ r, ∃ c : Vector K 3, r < g.height → g.fitRow r = .ok (.ofVector c) ∧
      Minimises g.geometry.rowDesign.toMatrix (fun i => g.node i r) c.get := by
    intro r
    by_cases hr : r < g.height
    · obtain ⟨c, hc⟩ := exists_fitRow h hsolve hr
      exact ⟨c, fun _ => hc⟩
    · exact ⟨.replicate 3 0, fun hlt => absurd hlt hr⟩
  choose c hc using hfit
  have hrow : g.geometry.y.pointBefore y < g.height :=
    Axis.pointBefore_lt (Nat.lt_of_lt_of_le Nat.two_pos h.height_ge) y
  have hfits : g.fitRows =
      .ok ((List.range g.height).map fun r => Parabola.ofVector (c r)).toArray := by
    rw [Grid.fitRows, layOut_eq, layOut_eq,
      mapM_eq_ok_map fun r hr => (hc r (List.mem_range.mp hr)).1]
    rfl
  refine ⟨(c (g.geometry.y.pointBefore y)).get, (hc _ hrow).2, ?_⟩
  intro x
  rw [← eval_ofVector]
  simp only [Sampler.valueAtMode, Sampler.interpolant, Grid.parabolas_sampler, hfits]
  simp [Except.map, Except.bind, Interpolant.valueAt, hrow]

/-- Where some parabola holds all samples of a row, its fit does. -/
theorem exists_valueAtMode_quadratic_of_exists {y : K} {c : Fin 3 → K}
    (hc : ∀ i < g.width, parabola c (g.geometry.x.position i) =
      g.node i (g.geometry.y.pointBefore y)) :
    ∃ c' : Fin 3 → K,
      (∀ i < g.width, parabola c' (g.geometry.x.position i) =
        g.node i (g.geometry.y.pointBefore y)) ∧
      ∀ x, g.sampler.valueAtMode x y .quadratic = .ok (parabola c' x) := by
  obtain ⟨c', hnearest, hvalue⟩ := exists_valueAtMode_quadratic h hsolve y
  refine ⟨c', ?_, hvalue⟩
  intro i hi
  have hexact : g.geometry.rowDesign.toMatrix *ᵥ c =
      fun i : Fin g.geometry.x.points => g.node i (g.geometry.y.pointBefore y) := by
    funext i
    rw [rowDesign_mulVec, hc i i.isLt]
  have hentry := congrFun (hnearest.mulVec_eq_of_exists hexact) ⟨i, hi⟩
  rwa [rowDesign_mulVec] at hentry

/-- A row of three columns or more that holds the values of a polynomial of degree two or less
answers with the polynomial everywhere, whatever the other rows hold.  A row of two columns
answers with its samples there. -/
theorem valueAtMode_quadratic_of_row {r : ℕ} {y : K}
    (hr : (r : ℤ) =
      max 0 (min ⌊(y - g.geometry.y.offset) / g.geometry.y.spacing⌋ (g.height - 1))) :
    (3 ≤ g.width → ∀ p : Polynomial K, p.natDegree ≤ 2 →
      (∀ c < g.width, g.sample c r = .ok (p.eval (g.geometry.x.position c))) →
      ∀ x, g.sampler.valueAtMode x y .quadratic = .ok (p.eval x)) ∧
    (g.width = 2 → ∀ c < 2, ∃ v, g.sample c r = .ok v ∧
      g.sampler.valueAtMode (g.geometry.x.position c) y .quadratic = .ok v) := by
  have hheight : 0 < g.height := Nat.lt_of_lt_of_le Nat.two_pos h.height_ge
  obtain rfl : r = g.geometry.y.pointBefore y :=
    Int.natCast_inj.mp (hr.trans (pointBefore_eq hheight h.height_lt.le y).symm)
  have hrow : g.geometry.y.pointBefore y < g.height := Axis.pointBefore_lt hheight y
  have hspacing := h.valid.spacing_x
  refine ⟨?_, ?_⟩
  · intro hwidth p hp hsamples x
    have hnode : ∀ i < g.width, parabola (fun k => p.coeff k) (g.geometry.x.position i) =
        g.node i (g.geometry.y.pointBefore y) := by
      intro i hi
      have hsample := hsamples i hi
      rw [h.sample_eq hi hrow] at hsample
      rw [← eval_eq_parabola hp, Except.ok.inj hsample]
    obtain ⟨c, hc, hvalue⟩ := exists_valueAtMode_quadratic_of_exists h hsolve hnode
    have hcoeff : c = fun k : Fin 3 => p.coeff k := by
      apply parabola_injective hspacing
      intro i hi
      rw [hc i (by omega), hnode i (by omega)]
    rw [hvalue, hcoeff, eval_eq_parabola hp]
  · intro hwidth i hi
    obtain ⟨c, hc⟩ :=
      exists_parabola hspacing fun i => g.node i (g.geometry.y.pointBefore y)
    rw [← hwidth] at hc hi
    obtain ⟨c', hc', hvalue⟩ := exists_valueAtMode_quadratic_of_exists h hsolve hc
    exact ⟨_, h.sample_eq hi hrow, by rw [hvalue, hc' i hi]⟩

end Rows

/-- Three columns around the origin are far from dependence. -/
theorem apartBy_rowDesign (y : Axis ℝ) :
    Spectral.ApartBy (1 / 4) (⟨⟨3, -1, 1⟩, y⟩ : Geometry ℝ).rowDesign.toMatrix := by
  set A : Matrix (Fin 3) (Fin 3) ℝ := (⟨⟨3, -1, 1⟩, y⟩ : Geometry ℝ).rowDesign.toMatrix
  have hvalues : ∀ w : Fin 3 → ℝ, A *ᵥ w = ![parabola w (-1), parabola w 0, parabola w 1] := by
    intro w
    funext i
    rw [rowDesign_mulVec]
    fin_cases i <;> norm_num [position_eq]
  intro w
  simp only [← mulVec_single_one, hvalues]
  simp [dotProduct, Fin.sum_univ_three, parabola]
  nlinarith [sq_nonneg (w 0 + w 2), sq_nonneg (w 0), sq_nonneg (w 1), sq_nonneg (w 2)]

/-- The last of two rows, at a place beyond its columns and below it. -/
theorem valueAtMode_quadratic_of_last_row :
    let _ : Circular ℝ := ⟨Real.pi, Real.sin, Real.cos, fun y x => Complex.arg ⟨x, y⟩⟩
    let _ : Decomposition ℝ := Spectral.solver
    let g : Grid ℝ := ⟨"longitude", none, none, ⟨⟨3, -1, 1⟩, ⟨2, 0, 2⟩⟩,
      #[5, -4, 1, 7, 8, 13], .at180⟩
    g.sampler.valueAtMode 10 100 .quadratic = .ok 238 := by
  intro _ _ g
  have h : g.Consistent :=
    ⟨⟨by decide, le_rfl, rfl, by decide, hasPositiveSpacing_of_pos one_pos,
      hasPositiveSpacing_of_pos two_pos, rfl, rfl⟩⟩
  have hsolve : FindsNearest (scaled g.geometry.rowDesign) :=
    Spectral.findsNearest_of_apartBy (by norm_num [g]) (apartBy_rowDesign _)
  have hr : ((1 : ℕ) : ℤ) =
      max 0 (min ⌊(100 - g.geometry.y.offset) / g.geometry.y.spacing⌋ (g.height - 1)) := by
    norm_num [g, Grid.height]
  have hdegree : (2 * Polynomial.X ^ 2 + 3 * Polynomial.X + 8 : Polynomial ℝ).natDegree ≤ 2 := by
    compute_degree
  have hsamples : ∀ c < g.width, g.sample c 1 =
      .ok ((2 * Polynomial.X ^ 2 + 3 * Polynomial.X + 8).eval (g.geometry.x.position c)) := by
    have hfirst : g.sample 0 1 = .ok 7 := rfl
    have hsecond : g.sample 1 1 = .ok 8 := rfl
    have hthird : g.sample 2 1 = .ok 13 := rfl
    intro c (hc : c < 3)
    interval_cases c
    · rw [hfirst]
      norm_num [g, position_eq]
    · rw [hsecond]
      norm_num [g, position_eq]
    · rw [hthird]
      norm_num [g, position_eq]
  obtain ⟨hpolynomial, -⟩ := valueAtMode_quadratic_of_row h hsolve hr
  rw [hpolynomial le_rfl _ hdegree hsamples]
  norm_num

end TiePoints.Exact
