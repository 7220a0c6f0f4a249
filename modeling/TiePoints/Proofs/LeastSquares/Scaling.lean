import Mathlib.Tactic.Positivity
import TiePoints.LeastSquares.Basic
import TiePoints.Proofs.Exact.Scalar
import TiePoints.Proofs.LeastSquares.Normal

/-!
# Designs and their solutions

In exact arithmetic the solver adds up the right directions of a design, each as
often as its factor says.  A solver that comes nearest to all values has a value
that is not negligible, unless the design is zero.  The design that is solved
differs from the one that is asked for by the scales of its columns, and none of
these is zero.
-/

namespace TiePoints

open Matrix

def Design.toMatrix {α : Type} {m n : ℕ} (d : Design α m n) : Matrix (Fin m) (Fin n) α :=
  .of fun i j => (d.get j).get i

/-- The triplets that are found of a design, and no triplet if the search for them fails. -/
def Decomposition.triplets {α : Type} [Decomposition α] {m n : ℕ} (d : Design α m n) :
    List (SingularTriplet α m n) :=
  (Decomposition.triplets? d).getD []

namespace LeastSquares

theorem foldl_max_le_iff {K : Type} [LinearOrder K] {m n : ℕ} (ts : List (SingularTriplet K m n))
    (x y : K) :
    ts.foldl (fun acc t => max acc t.value) x ≤ y ↔ x ≤ y ∧ ∀ t ∈ ts, t.value ≤ y := by
  induction ts generalizing x with
  | nil => simp
  | cons t ts ih => rw [List.foldl_cons, ih, max_le_iff, List.forall_mem_cons, and_assoc]

open scoped Exact

variable {K : Type} [Field K] [LinearOrder K] [FloorRing K] {m n : ℕ}

/-! ## Largest values -/

theorem largestValue_eq (ts : List (SingularTriplet K m n)) :
    largestValue ts = ts.foldl (fun acc t => max acc t.value) 0 := by
  have hstep : (fun (acc : K) (t : SingularTriplet K m n) => max acc t.value) =
      fun acc t => if acc < t.value then t.value else acc := by
    funext acc t
    exact max_def_lt _ _
  rw [hstep, ← Exact.zero_eq]
  rfl

theorem largestValue_le_iff {ts : List (SingularTriplet K m n)} {y : K} :
    largestValue ts ≤ y ↔ 0 ≤ y ∧ ∀ t ∈ ts, t.value ≤ y := by
  rw [largestValue_eq, foldl_max_le_iff]

theorem largestValue_nonneg (ts : List (SingularTriplet K m n)) : 0 ≤ largestValue ts :=
  (largestValue_le_iff.mp le_rfl).1

theorem le_largestValue {ts : List (SingularTriplet K m n)} {t : SingularTriplet K m n}
    (ht : t ∈ ts) : t.value ≤ largestValue ts :=
  (largestValue_le_iff.mp le_rfl).2 t ht

/-! ## Sums of directions -/

theorem get_ofFn {β : Type} (f : Fin n → β) : (Vector.ofFn f).get = f := by
  funext i
  exact Vector.getElem_ofFn _

variable [Decomposition K]

theorem get_foldl (ts : List (SingularTriplet K m n)) (cut : K) (b : Vector K m) (x : Vector K n) :
    (ts.foldl
      (fun acc t =>
        let f := factor cut b t
        acc.zipWith (fun a r => a + r * f) t.right) x).get =
      x.get + (ts.map fun t => factor cut b t • t.right.get).sum := by
  induction ts generalizing x with
  | nil => simp
  | cons t ts ih =>
      have hstep : (x.zipWith (fun a r => a + r * factor cut b t) t.right).get =
          x.get + factor cut b t • t.right.get := by
        funext j
        rw [Pi.add_apply, Pi.smul_apply, smul_eq_mul, mul_comm]
        exact Vector.getElem_zipWith _
      rw [List.foldl_cons, ih, hstep, List.map_cons, List.sum_cons, add_assoc]

/-- The solver adds up the directions, each as often as its factor says. -/
theorem get_solve (ts : List (SingularTriplet K m n)) (cut : K) (b : Vector K m) :
    (solve ts cut b).get = (ts.map fun t => factor cut b t • t.right.get).sum := by
  have hzero : (Vector.replicate n (Scalar.zero : K)).get = 0 := by
    funext j
    rw [Exact.zero_eq]
    exact Vector.getElem_replicate _
  rw [solve, get_foldl, hzero, zero_add]

/-! ## Solutions -/

/-- Up to here a singular value of the design counts as zero. -/
def negligible (d : Design K m n) : K :=
  cutoff (max m n) (largestValue (Decomposition.triplets d))

/-- What the solver finds for a design as it stands. -/
def solution (d : Design K m n) (b : Vector K m) : Vector K n :=
  solve (Decomposition.triplets d) (negligible d) b

/-- The solver comes nearest to all values. -/
def FindsNearest (d : Design K m n) : Prop :=
  ∀ b : Vector K m, Minimises d.toMatrix b.get (solution d b).get

/-- The design that is solved. -/
def scaled (d : Design K m n) : Design K m n := scaleColumns d (columnScales d)

theorem negligible_eq (d : Design K m n) :
    negligible d =
      largestValue (Decomposition.triplets d) * ((max m n : ℕ) : K) * (1 / 2 ^ 52) := by
  have hepsilon : (Scalar.epsilon : K) = ((1 : ℕ) : K) / ((2 ^ 52 : ℕ) : K) := rfl
  rw [Nat.cast_one, Nat.cast_pow, Nat.cast_two] at hepsilon
  rw [← hepsilon]
  rfl

theorem negligible_nonneg [IsStrictOrderedRing K] (d : Design K m n) : 0 ≤ negligible d := by
  have hlargest := largestValue_nonneg (Decomposition.triplets d)
  rw [negligible_eq]
  positivity

theorem get_solution (d : Design K m n) (b : Vector K m) :
    (solution d b).get =
      ((Decomposition.triplets d).map fun t => factor (negligible d) b t • t.right.get).sum :=
  get_solve _ _ b

/-- Without a positive value the solver would answer zero to everything. -/
theorem exists_value_pos [IsStrictOrderedRing K] {d : Design K m n} (hd : d.toMatrix ≠ 0)
    (hsolve : FindsNearest d) : ∃ t ∈ Decomposition.triplets d, 0 < t.value := by
  by_contra! hnone
  have hzero : ∀ b, (solution d b).get = 0 := by
    intro b
    rw [get_solution]
    apply List.sum_eq_zero
    intro x hx
    obtain ⟨t, ht, rfl⟩ := List.mem_map.mp hx
    have hcut : ¬ negligible d < t.value := not_lt.mpr ((hnone t ht).trans (negligible_nonneg d))
    rw [factor, if_neg hcut, Exact.zero_eq, zero_smul]
  apply hd
  apply Matrix.ext_of_mulVec_single
  intro j
  -- the column is one of the things to be answered
  have hcolumn := (hsolve (.ofFn (d.toMatrix *ᵥ Pi.single j 1))).mulVec_eq_of_exists
    (get_ofFn _).symm
  rw [hzero, mulVec_zero, get_ofFn] at hcolumn
  rw [← hcolumn, zero_mulVec]

/-! ## Scaled designs -/

theorem columnScale_pos (c : Vector K m) : 0 < columnScale c := by
  simp only [columnScale, Exact.one_eq, Exact.zero_eq]
  split_ifs with h
  · exact h
  · exact one_pos

theorem get_columnScales (d : Design K m n) (j : Fin n) :
    (columnScales d).get j = columnScale (d.get j) :=
  Vector.getElem_map _ _

theorem columnScales_ne_zero (d : Design K m n) (j : Fin n) :
    (columnScales d).get j ≠ 0 := by
  rw [get_columnScales]
  exact (columnScale_pos _).ne'

/-- The columns of the scaled design times their scales are those of the design. -/
theorem toMatrix_eq (d : Design K m n) :
    d.toMatrix = (scaled d).toMatrix * diagonal (columnScales d).get := by
  ext i j
  have hcolumn : (scaled d).get j = (d.get j).map (· / (columnScales d).get j) :=
    Vector.getElem_zipWith _
  have hentry : (scaled d).toMatrix i j = d.toMatrix i j / (columnScales d).get j := by
    rw [Design.toMatrix, of_apply, hcolumn]
    exact Vector.getElem_map _ _
  rw [mul_diagonal, hentry, div_mul_cancel₀ _ (columnScales_ne_zero d j)]

theorem col_eq_smul (d : Design K m n) (j : Fin n) :
    d.toMatrix.col j = columnScale (d.get j) • (scaled d).toMatrix.col j := by
  ext i
  rw [toMatrix_eq d, col_apply, mul_diagonal, get_columnScales, Pi.smul_apply, smul_eq_mul,
    mul_comm, col_apply]

theorem scaled_col_eq_zero {d : Design K m n} {j : Fin n} (h : d.toMatrix.col j = 0) :
    (scaled d).toMatrix.col j = 0 := by
  rw [col_eq_smul, smul_eq_zero] at h
  exact h.resolve_left (columnScale_pos _).ne'

theorem scaled_ne_zero {d : Design K m n} (hd : d.toMatrix ≠ 0) : (scaled d).toMatrix ≠ 0 := by
  intro hzero
  rw [toMatrix_eq d, hzero, Matrix.zero_mul] at hd
  exact hd rfl

end LeastSquares

end TiePoints
