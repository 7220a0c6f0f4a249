import Mathlib.Algebra.BigOperators.Fin
import TiePoints.LeastSquares.InnerProduct
import TiePoints.Proofs.LeastSquares.Scaling

/-!
# Solutions from singular triplets

The triplets of a design take it apart into orthonormal directions on both sides
and a factor that is not negative for each.  In these directions the normal
equations fall into one equation for each triplet, and a vanishing factor leaves
its equation open.  The solver sums the answers of the others, which is the
shortest solution, as long as it cuts off no factor that does not vanish.
-/

namespace TiePoints.LeastSquares

open Matrix
open scoped Exact

/-! ## Orthonormal directions -/

section Directions

variable {K ι κ ρ : Type} [Field K] [Fintype ι] [Fintype κ] [Fintype ρ] [DecidableEq ρ]
  {A : Matrix ι κ K} {U : Matrix ι ρ K} {V : Matrix κ ρ K} {σ y : ρ → K} {b : ι → K} {c : κ → K}

theorem transpose_mulVec_mulVec (hU : Uᵀ * U = 1) (z : ρ → K) : Uᵀ *ᵥ (U *ᵥ z) = z := by
  rw [mulVec_mulVec, hU, one_mulVec]

/-- In orthonormal directions there is one normal equation for each of them. -/
theorem solvesNormal_iff (hU : Uᵀ * U = 1) (hV : Vᵀ * V = 1) (hA : A = U * diagonal σ * Vᵀ) :
    SolvesNormal A b c ↔ ∀ k, σ k * (σ k * (Vᵀ *ᵥ c) k) = σ k * (Uᵀ *ᵥ b) k := by
  have happly : A *ᵥ c = U *ᵥ (diagonal σ *ᵥ (Vᵀ *ᵥ c)) := by
    rw [hA, ← mulVec_mulVec, ← mulVec_mulVec]
  have htranspose : ∀ z : ι → K, Aᵀ *ᵥ z = V *ᵥ (diagonal σ *ᵥ (Uᵀ *ᵥ z)) := by
    intro z
    rw [hA, transpose_mul, transpose_mul, transpose_transpose, diagonal_transpose,
      ← mulVec_mulVec, ← mulVec_mulVec]
  have hinjective : ∀ y z : ρ → K, V *ᵥ y = V *ᵥ z ↔ y = z := by
    intro y z
    refine ⟨fun h => ?_, fun h => by rw [h]⟩
    rw [← transpose_mulVec_mulVec hV y, h, transpose_mulVec_mulVec hV]
  rw [SolvesNormal, happly, htranspose, htranspose, transpose_mulVec_mulVec hU, hinjective,
    funext_iff]
  simp only [mulVec_diagonal]

/-- The shortest solution has no part in directions whose factor vanishes. -/
theorem leastNorm_of_directions [LinearOrder K] [IsStrictOrderedRing K] (hU : Uᵀ * U = 1)
    (hV : Vᵀ * V = 1) (hA : A = U * diagonal σ * Vᵀ)
    (hzero : ∀ k, σ k = 0 → y k = 0) (hy : ∀ k, σ k ≠ 0 → σ k * y k = (Uᵀ *ᵥ b) k) :
    LeastNorm A b (V *ᵥ y) where
  normal := by
    rw [solvesNormal_iff hU hV hA, transpose_mulVec_mulVec hV]
    intro k
    by_cases hσ : σ k = 0
    · rw [hσ, zero_mul, zero_mul]
    · rw [hy k hσ]
  le_of_normal c' hc' := by
    have hinner : y ⬝ᵥ (Vᵀ *ᵥ c') = y ⬝ᵥ y := by
      apply Finset.sum_congr rfl
      intro k _
      by_cases hσ : σ k = 0
      · rw [hzero k hσ, zero_mul, zero_mul]
      · have hk := mul_left_cancel₀ hσ ((solvesNormal_iff hU hV hA).mp hc' k)
        rw [mul_left_cancel₀ hσ (hk.trans (hy k hσ).symm)]
    have hlength : (V *ᵥ y) ⬝ᵥ (V *ᵥ y) = y ⬝ᵥ y := by
      rw [dotProduct_mulVec, ← mulVec_transpose, transpose_mulVec_mulVec hV]
    have hcross : c' ⬝ᵥ (V *ᵥ y) = y ⬝ᵥ y := by
      rw [dotProduct_mulVec, ← mulVec_transpose, dotProduct_comm, hinner]
    have hgap := dotProduct_self_nonneg (c' - V *ᵥ y)
    rw [sub_dotProduct, dotProduct_sub, dotProduct_sub, dotProduct_comm (V *ᵥ y) c', hcross,
      hlength] at hgap
    linarith

end Directions

/-! ## Triplets -/

section Triplets

variable {K : Type} {m n : ℕ}

def lefts (ts : List (SingularTriplet K m n)) : Matrix (Fin m) (Fin ts.length) K :=
  .of fun i k => ts[k].left.get i

def rights (ts : List (SingularTriplet K m n)) : Matrix (Fin n) (Fin ts.length) K :=
  .of fun j k => ts[k].right.get j

def factors (ts : List (SingularTriplet K m n)) (k : Fin ts.length) : K := ts[k].value

theorem transpose_lefts_mul_lefts [Field K] (ts : List (SingularTriplet K m n))
    (k l : Fin ts.length) :
    ((lefts ts)ᵀ * lefts ts) k l = ts[k].left.get ⬝ᵥ ts[l].left.get := rfl

theorem transpose_rights_mul_rights [Field K] (ts : List (SingularTriplet K m n))
    (k l : Fin ts.length) :
    ((rights ts)ᵀ * rights ts) k l = ts[k].right.get ⬝ᵥ ts[l].right.get := rfl

/-- Together the triplets make up the sum of their products. -/
theorem lefts_mul_diagonal_mul_rights [Field K] (ts : List (SingularTriplet K m n)) (i : Fin m)
    (j : Fin n) :
    (lefts ts * diagonal (factors ts) * (rights ts)ᵀ) i j =
      (ts.map fun t => t.left.get i * t.value * t.right.get j).sum := by
  rw [mul_apply, ← Fin.sum_univ_fun_getElem]
  apply Finset.sum_congr rfl
  intro k _
  rw [mul_diagonal]
  rfl

/-- The triplets take the matrix apart. -/
structure IsDecomposition [Field K] [LinearOrder K] (A : Matrix (Fin m) (Fin n) K)
    (ts : List (SingularTriplet K m n)) : Prop where
  value_nonneg : ∀ t ∈ ts, 0 ≤ t.value
  lefts_orthonormal : (lefts ts)ᵀ * lefts ts = 1
  rights_orthonormal : (rights ts)ᵀ * rights ts = 1
  eq_mul : A = lefts ts * diagonal (factors ts) * (rights ts)ᵀ

variable [Field K] [LinearOrder K] [FloorRing K]

/-! ## Inner products -/

theorem sum_toList (v : Vector K m) : v.toList.sum = ∑ i, v.get i := by
  have hlist : v.toList = List.ofFn v.get := by
    apply List.ext_getElem
    · simp
    · intro i _ _
      simp [Vector.get]
  rw [hlist, List.sum_ofFn]

theorem foldl_add (xs : List K) (x : K) : xs.foldl (· + ·) x = x + xs.sum := by
  rw [List.foldl_eq_apply_foldr]
  rfl

theorem sumInLanes_eq (lanes : Vector K 8) (xs : List K) :
    sumInLanes lanes xs = joinLanes lanes + xs.sum := by
  fun_induction sumInLanes lanes xs with
  | case1 lanes a b c d e f g h rest ih =>
      rw [ih]
      simp only [joinLanes, Exact.zero_eq, Vector.getElem_zipWith, List.sum_cons]
      simp
      ring
  | case2 lanes rest _ => exact foldl_add rest _

theorem dot_eq (u v : Vector K m) : dot u v = u.get ⬝ᵥ v.get := by
  have hzero : joinLanes (Vector.replicate 8 (Scalar.zero : K)) = 0 := by
    simp [joinLanes]
  rw [dot, sumInLanes_eq, hzero, zero_add, sum_toList]
  apply Finset.sum_congr rfl
  intro i _
  exact Vector.getElem_zipWith _

/-! ## Solutions -/

variable [Decomposition K]

/-- How far the solution goes in the direction of each triplet. -/
def parts (d : Design K m n) (b : Vector K m) (k : Fin (Decomposition.triplets d).length) : K :=
  factor (negligible d) b (Decomposition.triplets d)[k]

theorem get_solution_eq_mulVec (d : Design K m n) (b : Vector K m) :
    (solution d b).get = rights (Decomposition.triplets d) *ᵥ parts d b := by
  rw [get_solution, ← Fin.sum_univ_fun_getElem]
  funext j
  rw [Finset.sum_apply]
  apply Finset.sum_congr rfl
  intro k _
  rw [Pi.smul_apply, smul_eq_mul, mul_comm]
  rfl

variable [IsStrictOrderedRing K]

/-- The solution is the shortest if no value is cut off but zero. -/
theorem leastNorm_solution {d : Design K m n}
    (hdot : ∀ u v : Vector K m, Decomposition.dot u v = u.get ⬝ᵥ v.get)
    (h : IsDecomposition d.toMatrix (Decomposition.triplets d))
    (hcut : ∀ t ∈ Decomposition.triplets d, t.value ≠ 0 → negligible d < t.value)
    (b : Vector K m) : LeastNorm d.toMatrix b.get (solution d b).get := by
  rw [get_solution_eq_mulVec]
  apply leastNorm_of_directions h.lefts_orthonormal h.rights_orthonormal h.eq_mul
  · intro k hk
    have hvalue : (Decomposition.triplets d)[k].value = 0 := hk
    have hnot : ¬ negligible d < (Decomposition.triplets d)[k].value := by
      rw [hvalue]
      exact not_lt.mpr (negligible_nonneg d)
    rw [parts, factor, if_neg hnot, Exact.zero_eq]
  · intro k hk
    have hlt : negligible d < (Decomposition.triplets d)[k].value :=
      hcut _ (List.getElem_mem _) hk
    rw [parts, factor, if_pos hlt, hdot]
    exact mul_div_cancel₀ _ hk

end Triplets

end TiePoints.LeastSquares
