import Mathlib.Algebra.Order.Chebyshev
import Mathlib.Analysis.Matrix.PosDef
import TiePoints.Proofs.LeastSquares.Triplets

/-!
# A solver over the real numbers

The product of the transpose of a matrix with the matrix has an orthonormal
basis of eigenvectors.  The matrix takes them to orthogonal vectors, whose
lengths are the square roots of the eigenvalues.  Where these are positive they
give the triplets of the matrix.  A solver that takes them does what is asked of
solvers elsewhere, for every design whose columns are far enough from dependence.
-/

namespace TiePoints.LeastSquares.Spectral

open Matrix
open scoped Exact

variable {m n : ℕ}

/-! ## Directions -/

section Directions

variable (A : Matrix (Fin m) (Fin n) ℝ)

theorem isHermitian_transpose_mul_self : (Aᵀ * A).IsHermitian := by
  rw [← conjTranspose_eq_transpose_of_trivial]
  exact isHermitian_conjTranspose_mul_self A

noncomputable def direction (j : Fin n) : Fin n → ℝ :=
  (isHermitian_transpose_mul_self A).eigenvectorBasis j

/-- The square of a singular value. -/
noncomputable def eigenvalue (j : Fin n) : ℝ := (isHermitian_transpose_mul_self A).eigenvalues j

theorem direction_dotProduct (j l : Fin n) :
    direction A j ⬝ᵥ direction A l = if j = l then 1 else 0 := by
  have h := orthonormal_iff_ite.mp
    (isHermitian_transpose_mul_self A).eigenvectorBasis.orthonormal j l
  rw [EuclideanSpace.inner_eq_star_dotProduct, star_trivial, dotProduct_comm] at h
  exact h

theorem sum_direction (x : Fin n → ℝ) :
    ∑ j, (direction A j ⬝ᵥ x) • direction A j = x := by
  have h := congrArg WithLp.ofLp
    ((isHermitian_transpose_mul_self A).eigenvectorBasis.sum_repr' (WithLp.toLp 2 x))
  simp only [EuclideanSpace.inner_eq_star_dotProduct, star_trivial, WithLp.ofLp_sum,
    WithLp.ofLp_smul, dotProduct_comm x] at h
  exact h

theorem transpose_mulVec_mulVec_direction (j : Fin n) :
    Aᵀ *ᵥ (A *ᵥ direction A j) = eigenvalue A j • direction A j := by
  rw [mulVec_mulVec]
  exact (isHermitian_transpose_mul_self A).mulVec_eigenvectorBasis j

theorem mulVec_direction_dotProduct (j l : Fin n) :
    (A *ᵥ direction A j) ⬝ᵥ (A *ᵥ direction A l) = if j = l then eigenvalue A j else 0 := by
  rw [dotProduct_mulVec, ← mulVec_transpose, transpose_mulVec_mulVec_direction, smul_dotProduct,
    direction_dotProduct, smul_eq_mul, mul_ite, mul_one, mul_zero]

theorem eigenvalue_nonneg (j : Fin n) : 0 ≤ eigenvalue A j := by
  have h := mulVec_direction_dotProduct A j j
  rw [if_pos rfl] at h
  rw [← h]
  exact dotProduct_self_nonneg _

theorem mulVec_direction_eq_zero {j : Fin n} (h : eigenvalue A j = 0) :
    A *ᵥ direction A j = 0 := by
  rw [← dotProduct_self_eq_zero, mulVec_direction_dotProduct, if_pos rfl, h]

end Directions

/-! ## Triplets -/

section Triplets

variable (A : Matrix (Fin m) (Fin n) ℝ)

noncomputable def triplet (j : Fin n) : SingularTriplet ℝ m n where
  value := √(eigenvalue A j)
  left := .ofFn ((√(eigenvalue A j))⁻¹ • A *ᵥ direction A j)
  right := .ofFn (direction A j)

noncomputable def positives : List (Fin n) :=
  (List.finRange n).filter fun j => 0 < eigenvalue A j

/-- Norms are lengths, inner products are added in lanes, and the triplets have the positive
singular values. -/
noncomputable scoped instance solver : Decomposition ℝ where
  norm c := √(c.get ⬝ᵥ c.get)
  dot := LeastSquares.dot
  triplets? d := some ((positives d.toMatrix).map (triplet d.toMatrix))

theorem mem_positives {j : Fin n} : j ∈ positives A ↔ 0 < eigenvalue A j := by
  simp [positives]

theorem nodup_positives : (positives A).Nodup := (List.nodup_finRange n).filter _

variable {A}

@[simp] theorem value_triplet (j : Fin n) : (triplet A j).value = √(eigenvalue A j) := rfl

@[simp] theorem get_left_triplet (j : Fin n) :
    (triplet A j).left.get = (√(eigenvalue A j))⁻¹ • A *ᵥ direction A j := get_ofFn _

@[simp] theorem get_right_triplet (j : Fin n) : (triplet A j).right.get = direction A j :=
  get_ofFn _

theorem left_dotProduct {j : Fin n} (hj : 0 < eigenvalue A j) (l : Fin n) :
    (triplet A j).left.get ⬝ᵥ (triplet A l).left.get = if j = l then 1 else 0 := by
  rw [get_left_triplet, get_left_triplet, smul_dotProduct, dotProduct_smul,
    mulVec_direction_dotProduct, smul_eq_mul, smul_eq_mul]
  split_ifs with h
  · rw [← h, ← mul_assoc, ← mul_inv, Real.mul_self_sqrt hj.le, inv_mul_cancel₀ hj.ne']
  · rw [mul_zero, mul_zero]

/-- The part of the matrix that a direction makes up. -/
theorem triplet_apply (j : Fin n) (i : Fin m) (l : Fin n) :
    (triplet A j).left.get i * (triplet A j).value * (triplet A j).right.get l =
      (A *ᵥ direction A j) i * direction A j l := by
  rw [get_left_triplet, get_right_triplet, value_triplet, Pi.smul_apply, smul_eq_mul]
  rcases (eigenvalue_nonneg A j).eq_or_lt with hzero | hpos
  · rw [mulVec_direction_eq_zero A hzero.symm, Pi.zero_apply, mul_zero, zero_mul]
  · rw [mul_right_comm (√(eigenvalue A j))⁻¹, inv_mul_cancel₀ (Real.sqrt_pos.mpr hpos).ne',
      one_mul]

theorem eq_sum_directions (i : Fin m) (l : Fin n) :
    A i l = ∑ j, (A *ᵥ direction A j) i * direction A j l := by
  have hbasis : A *ᵥ Pi.single l 1 = ∑ j, direction A j l • A *ᵥ direction A j := by
    conv_lhs => rw [← sum_direction A (Pi.single l 1), mulVec_sum]
    apply Finset.sum_congr rfl
    intro j _
    rw [mulVec_smul, dotProduct_single_one]
  have hentry := congrFun hbasis i
  rw [mulVec_single_one, col_apply, Finset.sum_apply] at hentry
  rw [hentry]
  apply Finset.sum_congr rfl
  intro j _
  rw [Pi.smul_apply, smul_eq_mul, mul_comm]

/-- Only the positive values count. -/
theorem sum_positives {F : Fin n → ℝ} (hF : ∀ j, eigenvalue A j = 0 → F j = 0) :
    ((positives A).map F).sum = ∑ j, F j := by
  rw [← List.sum_toFinset _ (nodup_positives A)]
  apply Finset.sum_subset (Finset.subset_univ _)
  intro j _ hj
  rw [List.mem_toFinset, mem_positives, not_lt] at hj
  exact hF j (le_antisymm hj (eigenvalue_nonneg A j))

theorem isDecomposition_triplets (A : Matrix (Fin m) (Fin n) ℝ) :
    IsDecomposition A ((positives A).map (triplet A)) := by
  set ts := (positives A).map (triplet A) with hts
  -- the direction of each triplet
  obtain ⟨js, hjs, hget⟩ : ∃ js : Fin ts.length → Fin n, Function.Injective js ∧
      ∀ k, 0 < eigenvalue A (js k) ∧ ts[k] = triplet A (js k) := by
    refine ⟨fun k => (positives A).get (k.cast (List.length_map _)), ?_, ?_⟩
    · exact (List.nodup_iff_injective_get.mp (nodup_positives A)).comp (Fin.cast_injective _)
    · intro k
      exact ⟨(mem_positives A).mp (List.get_mem _ _), List.getElem_map _⟩
  refine ⟨?_, ?_, ?_, ?_⟩
  · intro t ht
    obtain ⟨j, -, rfl⟩ := List.mem_map.mp ht
    exact Real.sqrt_nonneg _
  · ext k l
    rw [transpose_lefts_mul_lefts, (hget k).2, (hget l).2, left_dotProduct (hget k).1, one_apply]
    simp only [hjs.eq_iff]
  · ext k l
    rw [transpose_rights_mul_rights, (hget k).2, (hget l).2, get_right_triplet,
      get_right_triplet, direction_dotProduct, one_apply]
    simp only [hjs.eq_iff]
  · ext i l
    have hparts : (fun t : SingularTriplet ℝ m n => t.left.get i * t.value * t.right.get l) ∘
        triplet A = fun j => (A *ᵥ direction A j) i * direction A j l :=
      funext fun j => triplet_apply j i l
    have hzero : ∀ j, eigenvalue A j = 0 → (A *ᵥ direction A j) i * direction A j l = 0 := by
      intro j hj
      rw [mulVec_direction_eq_zero A hj, Pi.zero_apply, zero_mul]
    rw [lefts_mul_diagonal_mul_rights, hts, List.map_map, hparts, sum_positives hzero]
    exact eq_sum_directions i l

end Triplets

/-! ## Cut off values -/

section Bounds

variable {d : Design ℝ m n}

theorem columnScale_mul_self {j : Fin n} (hj : d.toMatrix.col j ≠ 0) :
    columnScale (d.get j) * columnScale (d.get j) = d.toMatrix.col j ⬝ᵥ d.toMatrix.col j := by
  have hself : (d.get j).get ⬝ᵥ (d.get j).get = d.toMatrix.col j ⬝ᵥ d.toMatrix.col j := rfl
  have hlength := (dotProduct_self_nonneg (d.toMatrix.col j)).lt_of_ne'
    (mt dotProduct_self_eq_zero.mp hj)
  have hscale : columnScale (d.get j) = √(d.toMatrix.col j ⬝ᵥ d.toMatrix.col j) := by
    rw [columnScale, Exact.zero_eq, ← hself]
    exact if_pos (Real.sqrt_pos.mpr hlength)
  rw [hscale, Real.mul_self_sqrt hlength.le]

/-- Scaled columns have length one, unless they are zero. -/
theorem scaled_col_dotProduct (d : Design ℝ m n) (j : Fin n) :
    (scaled d).toMatrix.col j ⬝ᵥ (scaled d).toMatrix.col j =
      if d.toMatrix.col j = 0 then 0 else 1 := by
  have hpos := (columnScale_pos (d.get j)).ne'
  have hcol := col_eq_smul d j
  split_ifs with hzero
  · rw [scaled_col_eq_zero hzero, zero_dotProduct]
  · have hsquare := columnScale_mul_self hzero
    rw [hcol, smul_dotProduct, dotProduct_smul, smul_eq_mul, smul_eq_mul, ← mul_assoc] at hsquare
    exact mul_left_cancel₀ (mul_ne_zero hpos hpos) (by rw [← hsquare, mul_one])

theorem mulVec_dotProduct_le {A : Matrix (Fin m) (Fin n) ℝ}
    (hA : ∀ j, A.col j ⬝ᵥ A.col j ≤ 1) (v : Fin n → ℝ) :
    (A *ᵥ v) ⬝ᵥ (A *ᵥ v) ≤ n * (v ⬝ᵥ v) := by
  calc (A *ᵥ v) ⬝ᵥ (A *ᵥ v) = ∑ i, (∑ j, A i j * v j) ^ 2 :=
        Finset.sum_congr rfl fun i _ => (sq _).symm
    _ ≤ ∑ i, n * ∑ j, (A i j * v j) ^ 2 := by
        apply Finset.sum_le_sum
        intro i _
        have h := sq_sum_le_card_mul_sum_sq (s := Finset.univ) (f := fun j => A i j * v j)
        rwa [Finset.card_univ, Fintype.card_fin] at h
    _ = n * ∑ j, (A.col j ⬝ᵥ A.col j) * (v j * v j) := by
        rw [← Finset.mul_sum, Finset.sum_comm]
        congr 1
        apply Finset.sum_congr rfl
        intro j _
        rw [dotProduct, Finset.sum_mul]
        apply Finset.sum_congr rfl
        intro i _
        rw [col_apply]
        ring
    _ ≤ n * (v ⬝ᵥ v) := by
        apply mul_le_mul_of_nonneg_left _ (Nat.cast_nonneg n)
        apply Finset.sum_le_sum
        intro j _
        exact mul_le_of_le_one_left (mul_self_nonneg _) (hA j)

theorem negligible_scaled_le (d : Design ℝ m n) :
    negligible (scaled d) ≤ n * (max m n : ℕ) * (1 / 2 ^ 52) := by
  have hcol : ∀ j, (scaled d).toMatrix.col j ⬝ᵥ (scaled d).toMatrix.col j ≤ 1 := by
    intro j
    rw [scaled_col_dotProduct]
    split_ifs
    · exact zero_le_one
    · exact le_rfl
  have hlargest : largestValue (Decomposition.triplets (scaled d)) ≤ n := by
    rw [largestValue_le_iff]
    refine ⟨Nat.cast_nonneg n, ?_⟩
    intro t ht
    obtain ⟨j, -, rfl⟩ := List.mem_map.mp ht
    have hlength := mulVec_dotProduct_le hcol (direction (scaled d).toMatrix j)
    rw [mulVec_direction_dotProduct, direction_dotProduct, if_pos rfl, if_pos rfl, mul_one]
      at hlength
    have hsquare : (n : ℝ) ≤ n ^ 2 := by exact_mod_cast Nat.le_self_pow two_ne_zero n
    exact Real.sqrt_le_iff.mpr ⟨Nat.cast_nonneg n, hlength.trans hsquare⟩
  rw [negligible_eq]
  gcongr

/-- How far the columns are from dependence, in proportion to their lengths. -/
def ApartBy (c : ℝ) (A : Matrix (Fin m) (Fin n) ℝ) : Prop :=
  ∀ w : Fin n → ℝ, c ^ 2 * ∑ j, (A.col j ⬝ᵥ A.col j) * w j ^ 2 ≤ (A *ᵥ w) ⬝ᵥ (A *ᵥ w)

/-- A direction with a value takes no part in zero columns. -/
theorem direction_apply_eq_zero {A : Matrix (Fin m) (Fin n) ℝ} {j l : Fin n}
    (hj : eigenvalue A j ≠ 0) (hl : A.col l = 0) : direction A j l = 0 := by
  have h := congrFun (transpose_mulVec_mulVec_direction A j) l
  have hentry : (Aᵀ *ᵥ (A *ᵥ direction A j)) l = A.col l ⬝ᵥ (A *ᵥ direction A j) := rfl
  rw [hentry, hl, zero_dotProduct, Pi.smul_apply, smul_eq_mul, eq_comm, mul_eq_zero] at h
  exact h.resolve_left hj

/-- The solver cuts off nothing if the columns are far enough from dependence. -/
theorem leastNorm_solution_of_apartBy {c : ℝ} (hc : n * (max m n : ℕ) * (1 / 2 ^ 52) < c)
    (hapart : ApartBy c d.toMatrix) (b : Vector ℝ m) :
    LeastNorm (scaled d).toMatrix b.get (solution (scaled d) b).get := by
  apply leastNorm_solution dot_eq (isDecomposition_triplets _)
  intro t ht _
  obtain ⟨j, hj, rfl⟩ := List.mem_map.mp ht
  rw [mem_positives] at hj
  refine (negligible_scaled_le d).trans_lt (hc.trans_le (Real.le_sqrt_of_sq_le ?_))
  set S := (scaled d).toMatrix with hS
  -- the same direction for the design as it was
  set w := direction S j / (columnScales d).get with hw
  have himage : d.toMatrix *ᵥ w = S *ᵥ direction S j := by
    rw [toMatrix_eq d, ← mulVec_mulVec, diagonal_mulVec_div (columnScales_ne_zero d)]
  have hlength : ∑ l, (d.toMatrix.col l ⬝ᵥ d.toMatrix.col l) * w l ^ 2 = 1 := by
    rw [← (direction_dotProduct S j j).trans (if_pos rfl)]
    apply Finset.sum_congr rfl
    intro l _
    by_cases hl : d.toMatrix.col l = 0
    · rw [hl, zero_dotProduct, zero_mul, direction_apply_eq_zero hj.ne' (scaled_col_eq_zero hl),
        zero_mul]
    · rw [← columnScale_mul_self hl, hw, Pi.div_apply, get_columnScales]
      have hscale := (columnScale_pos (d.get l)).ne'
      field_simp
  have h := hapart w
  rwa [hlength, mul_one, himage, mulVec_direction_dotProduct, if_pos rfl] at h

theorem findsNearest_of_apartBy {c : ℝ} (hc : n * (max m n : ℕ) * (1 / 2 ^ 52) < c)
    (hapart : ApartBy c d.toMatrix) : FindsNearest (scaled d) :=
  fun b => (leastNorm_solution_of_apartBy hc hapart b).normal.minimises

end Bounds

end TiePoints.LeastSquares.Spectral
