import TiePoints.Proofs.LeastSquares.Spectral

/-!
# Least squares under scaling

A design is solved with its columns divided by their norms, and the solution is
divided by the norms again.  In exact arithmetic this changes nothing: whatever
is taken for the norms, what comes nearest to the values for the scaled design
comes nearest for the design itself.  Only the choice among several such
solutions depends on the norms, and no choice takes a zero column.
-/

namespace TiePoints.LeastSquares

open Matrix
open scoped Exact

section Solver

variable {K : Type} [Field K] [LinearOrder K] [FloorRing K] [Decomposition K] {m n : ℕ}

theorem leastSquares_eq_ok {d : Design K m n} (hm : m ≠ 0) (hn : n ≠ 0)
    (hvalue : ∃ t ∈ Decomposition.triplets (scaled d), 0 < t.value) (b : Vector K m) :
    leastSquares d b.toArray =
      .ok ((solution (scaled d) b).zipWith (· / ·) (columnScales d)) := by
  obtain ⟨t, ht, hpos⟩ := hvalue
  -- some triplet is found, so the search has a result
  obtain ⟨ts, hts⟩ : ∃ ts, Decomposition.triplets? (scaled d) = some ts := by
    rw [← Option.isSome_iff_exists]
    by_contra hnone
    rw [Decomposition.triplets, Option.not_isSome_iff_eq_none.mp hnone] at ht
    cases ht
  have htriplets : Decomposition.triplets (scaled d) = ts := by
    rw [Decomposition.triplets, hts, Option.getD_some]
  have hlargest : 0 < largestValue ts := hpos.trans_le (le_largestValue (htriplets ▸ ht))
  have hdefined : ¬ (!Scalar.isFinite (largestValue ts) ||
      Scalar.sameValue (largestValue ts) Scalar.zero) = true := by
    have hfinite : Scalar.isFinite (largestValue ts) = true := rfl
    have hnot : ¬ largestValue ts ≤ (Scalar.zero : K) := by
      rw [Exact.zero_eq]
      exact not_le.mpr hlargest
    simp only [hfinite, Scalar.sameValue, Bool.not_true, Bool.false_or, Bool.and_eq_true,
      decide_eq_true_eq, not_and]
    exact fun hle => absurd hle hnot
  have hfound : Decomposition.triplets? (scaleColumns d (columnScales d)) = some ts := hts
  rw [leastSquares, dif_pos b.size_toArray, if_neg (not_or.mpr ⟨hm, hn⟩)]
  simp only [hfound]
  rw [if_neg hdefined, solution, negligible, htriplets]

omit [Decomposition K] in
theorem get_zipWith_div (x s : Vector K n) : (x.zipWith (· / ·) s).get = x.get / s.get := by
  funext j
  exact Vector.getElem_zipWith _

variable [IsStrictOrderedRing K]

/-- A design that is not zero is solved if the solver solves the scaled design. -/
theorem leastSquares_of_findsNearest {d : Design K m n} (hd : d.toMatrix ≠ 0)
    (hsolve : FindsNearest (scaled d)) (b : Vector K m) :
    ∃ c : Vector K n, leastSquares d b.toArray = .ok c ∧
      c.get = (solution (scaled d) b).get / (columnScales d).get ∧
      Minimises d.toMatrix b.get c.get := by
  have hm : m ≠ 0 := by
    rintro rfl
    exact hd (Subsingleton.elim _ _)
  have hn : n ≠ 0 := by
    rintro rfl
    exact hd (Subsingleton.elim _ _)
  have hvalue := exists_value_pos (scaled_ne_zero hd) hsolve
  refine ⟨_, leastSquares_eq_ok hm hn hvalue b, get_zipWith_div _ _, ?_⟩
  rw [toMatrix_eq d, get_zipWith_div]
  exact (hsolve b).mul_diagonal (columnScales_ne_zero d)

/-- The coefficients are those that come nearest to the values, whatever is taken for the norms of
the columns, if the solver finds the shortest such coefficients for the scaled design.  No zero
column is taken, and nothing is divided by zero. -/
theorem leastSquares_nearest {d : Design K m n} (hd : d.toMatrix ≠ 0)
    (hsolve : ∀ b : Vector K m,
      LeastNorm (scaled d).toMatrix b.get (solution (scaled d) b).get)
    (b : Vector K m) :
    ∃ c : Vector K n, leastSquares d b.toArray = .ok c ∧
      SolvesNormal d.toMatrix b.get c.get ∧ Minimises d.toMatrix b.get c.get ∧
      (∀ j, d.toMatrix.col j = 0 → c.get j = 0) ∧
      (LinearIndependent K d.toMatrix.col →
        ∀ c', Minimises d.toMatrix b.get c' → c' = c.get) ∧
      (∀ j, (columnScales d).get j ≠ 0) ∧
      ∀ t ∈ Decomposition.triplets (scaled d), negligible (scaled d) < t.value → t.value ≠ 0 := by
  have hscale := columnScales_ne_zero d
  obtain ⟨c, hc, hget, -⟩ :=
    leastSquares_of_findsNearest hd (fun b => (hsolve b).normal.minimises) b
  have hnormal : SolvesNormal d.toMatrix b.get c.get := by
    rw [toMatrix_eq d, hget]
    exact (hsolve b).normal.mul_diagonal hscale
  refine ⟨c, hc, hnormal, hnormal.minimises, ?_, ?_, hscale, ?_⟩
  · intro j hj
    rw [hget, Pi.div_apply, (hsolve b).eq_zero_of_column (scaled_col_eq_zero hj), zero_div]
  · intro hrank c' hc'
    exact mulVec_injective_iff.mpr hrank (hnormal.mulVec_eq hc')
  · intro t _ hcut
    exact ((negligible_nonneg _).trans_lt hcut).ne'

end Solver

/-- A zero column between two others, in a system with fewer rows than columns. -/
theorem leastSquares_nearest_zero_column :
    let _ : Decomposition ℝ := Spectral.solver
    let d : Design ℝ 2 3 := #v[#v[3, 4], #v[0, 0], #v[-8, 6]]
    ∃ c : Vector ℝ 3, leastSquares d #[1, 2] = .ok c ∧
      SolvesNormal d.toMatrix ![1, 2] c.get ∧ c.get 1 = 0 := by
  intro _ d
  have hmatrix : d.toMatrix = !![3, 0, -8; 4, 0, 6] := by
    ext i j
    fin_cases i <;> fin_cases j <;> rfl
  have hcolumn : d.toMatrix.col 1 = 0 := by
    rw [hmatrix]
    ext i
    fin_cases i <;> rfl
  have hd : d.toMatrix ≠ 0 := by
    intro h
    have hentry : d.toMatrix 0 0 = 0 := by rw [h, Matrix.zero_apply]
    rw [hmatrix] at hentry
    norm_num at hentry
  -- the two columns that are not zero are orthogonal
  have hapart : Spectral.ApartBy 1 d.toMatrix := by
    intro w
    apply le_of_eq
    simp [hmatrix, dotProduct, Fin.sum_univ_three, mulVec]
    ring
  have hsolve := Spectral.leastNorm_solution_of_apartBy (by norm_num) hapart
  obtain ⟨c, hc, hnormal, -, hzero, -⟩ := leastSquares_nearest hd hsolve #v[1, 2]
  refine ⟨c, hc, ?_, hzero 1 hcolumn⟩
  have hb : (#v[1, 2] : Vector ℝ 2).get = ![1, 2] := by
    funext i
    fin_cases i <;> rfl
  rwa [hb] at hnormal

end TiePoints.LeastSquares
