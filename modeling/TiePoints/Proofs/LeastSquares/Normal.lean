import Mathlib.LinearAlgebra.Matrix.DotProduct
import Mathlib.LinearAlgebra.Matrix.ToLin
import Mathlib.Tactic.Linarith
import Mathlib.Tactic.Ring

/-!
# Normal equations

What a system misses its values by is least where the gap is orthogonal to all
columns.  Other solutions of these normal equations come as near, and miss the
values alike in every row.  The columns of a system may be divided by numbers of
any size, as long as its solutions are divided by the same numbers, and all
values may be taken away from values that the system has, as long as its
solutions are taken away from the coefficients of these.
-/

namespace TiePoints.LeastSquares

open Matrix

variable {K ι κ : Type} [Field K] [Fintype ι] [Fintype κ]

/-- The square of the distance that is left between a system and its values. -/
def residual (A : Matrix ι κ K) (b : ι → K) (c : κ → K) : K := (A *ᵥ c - b) ⬝ᵥ (A *ᵥ c - b)

/-- The normal equations of a system. -/
def SolvesNormal (A : Matrix ι κ K) (b : ι → K) (c : κ → K) : Prop := Aᵀ *ᵥ (A *ᵥ c) = Aᵀ *ᵥ b

/-- No coefficients come nearer to the values. -/
def Minimises [LinearOrder K] (A : Matrix ι κ K) (b : ι → K) (c : κ → K) : Prop :=
  ∀ c', residual A b c ≤ residual A b c'

/-- Of the solutions of the normal equations the one of least length. -/
structure LeastNorm [LinearOrder K] (A : Matrix ι κ K) (b : ι → K) (c : κ → K) : Prop where
  normal : SolvesNormal A b c
  le_of_normal : ∀ c', SolvesNormal A b c' → c ⬝ᵥ c ≤ c' ⬝ᵥ c'

variable {A : Matrix ι κ K} {b : ι → K} {c c' : κ → K}

theorem SolvesNormal.dotProduct_mulVec (h : SolvesNormal A b c) (x : κ → K) :
    (A *ᵥ c - b) ⬝ᵥ (A *ᵥ x) = 0 := by
  have hgap : Aᵀ *ᵥ (A *ᵥ c - b) = 0 := by
    rw [mulVec_sub, h, sub_self]
  rw [Matrix.dotProduct_mulVec, ← mulVec_transpose, hgap, zero_dotProduct]

theorem residual_add (A : Matrix ι κ K) (b : ι → K) (c x : κ → K) :
    residual A b (c + x) =
      residual A b c + 2 * ((A *ᵥ c - b) ⬝ᵥ (A *ᵥ x)) + (A *ᵥ x) ⬝ᵥ (A *ᵥ x) := by
  have hsplit : A *ᵥ (c + x) - b = (A *ᵥ c - b) + A *ᵥ x := by
    rw [mulVec_add]
    abel
  rw [residual, hsplit, add_dotProduct, dotProduct_add, dotProduct_add,
    dotProduct_comm (A *ᵥ x) (A *ᵥ c - b), residual]
  ring

/-- Away from a solution of the normal equations the distance grows by the way gone. -/
theorem SolvesNormal.residual_eq (h : SolvesNormal A b c) (c' : κ → K) :
    residual A b c' = residual A b c + (A *ᵥ (c' - c)) ⬝ᵥ (A *ᵥ (c' - c)) := by
  have hadd := residual_add A b c (c' - c)
  rwa [add_sub_cancel, h.dotProduct_mulVec, mul_zero, add_zero] at hadd

/-! ## Reflected values -/

/-- Coefficients are as far from values as their reflections at others from what these leave of the
values. -/
theorem residual_reflect (A : Matrix ι κ K) (b : ι → K) (e c : κ → K) :
    residual A (A *ᵥ e - b) (e - c) = residual A b c := by
  have hgap : A *ᵥ (e - c) - (A *ᵥ e - b) = -(A *ᵥ c - b) := by
    rw [mulVec_sub]
    abel
  rw [residual, hgap, neg_dotProduct_neg, residual]

theorem Minimises.reflect [LinearOrder K] (h : Minimises A b c) (e : κ → K) :
    Minimises A (A *ᵥ e - b) (e - c) := by
  intro c'
  rw [residual_reflect, ← sub_sub_cancel e c', residual_reflect]
  exact h _

/-! ## Scaled columns -/

section Scaling

variable [DecidableEq κ] {S : Matrix ι κ K} {s x : κ → K}

theorem diagonal_mulVec_div (hs : ∀ j, s j ≠ 0) (x : κ → K) : diagonal s *ᵥ (x / s) = x := by
  funext j
  rw [mulVec_diagonal, Pi.div_apply, mul_div_cancel₀ _ (hs j)]

theorem residual_mul_diagonal (hs : ∀ j, s j ≠ 0) (x : κ → K) :
    residual (S * diagonal s) b (x / s) = residual S b x := by
  rw [residual, ← mulVec_mulVec, diagonal_mulVec_div hs, residual]

theorem SolvesNormal.mul_diagonal (h : SolvesNormal S b x) (hs : ∀ j, s j ≠ 0) :
    SolvesNormal (S * diagonal s) b (x / s) := by
  rw [SolvesNormal, transpose_mul, diagonal_transpose, ← mulVec_mulVec, ← mulVec_mulVec,
    ← mulVec_mulVec, diagonal_mulVec_div hs, h]

theorem Minimises.mul_diagonal [LinearOrder K] (h : Minimises S b x) (hs : ∀ j, s j ≠ 0) :
    Minimises (S * diagonal s) b (x / s) := by
  intro c'
  have hc' : c' = (s * c') / s := by
    funext j
    rw [Pi.div_apply, Pi.mul_apply, mul_div_cancel_left₀ _ (hs j)]
  rw [hc', residual_mul_diagonal hs, residual_mul_diagonal hs]
  exact h _

end Scaling

variable [LinearOrder K] [IsStrictOrderedRing K]

/-! ## Nearest solutions -/

theorem dotProduct_self_nonneg (v : ι → K) : 0 ≤ v ⬝ᵥ v :=
  Finset.sum_nonneg fun i _ => mul_self_nonneg (v i)

theorem SolvesNormal.minimises (h : SolvesNormal A b c) : Minimises A b c := by
  intro c'
  rw [h.residual_eq c']
  exact le_add_of_nonneg_right (dotProduct_self_nonneg _)

/-- Whatever comes nearest to the values has the same values: half way between two of these it would
come nearer still. -/
theorem Minimises.mulVec_eq (h : Minimises A b c) (h' : Minimises A b c') :
    A *ᵥ c' = A *ᵥ c := by
  have hhalf := h (c + (1 / 2 : K) • (c' - c))
  rw [residual_add, mulVec_smul, dotProduct_smul, smul_dotProduct, dotProduct_smul, smul_eq_mul,
    smul_eq_mul, smul_eq_mul] at hhalf
  have hend := residual_add A b c (c' - c)
  rw [add_sub_cancel] at hend
  have hle := h' c
  have hnonpos : (A *ᵥ (c' - c)) ⬝ᵥ (A *ᵥ (c' - c)) ≤ 0 := by linarith
  have hzero := le_antisymm hnonpos (dotProduct_self_nonneg _)
  rwa [dotProduct_self_eq_zero, mulVec_sub, sub_eq_zero] at hzero

theorem SolvesNormal.mulVec_eq (h : SolvesNormal A b c) (hmin : Minimises A b c') :
    A *ᵥ c' = A *ᵥ c :=
  h.minimises.mulVec_eq hmin

/-- A system that has a solution is solved by what comes nearest to its values. -/
theorem Minimises.mulVec_eq_of_exists (h : Minimises A b c) (hb : A *ᵥ c' = b) : A *ᵥ c = b := by
  have hnormal : SolvesNormal A b c' := by
    rw [SolvesNormal, hb]
  exact (hnormal.mulVec_eq h).trans hb

/-- If a system tells coefficients apart, what comes nearest to reflected values is the reflection
of what comes nearest to the values. -/
theorem Minimises.eq_reflection (hA : Function.Injective fun c => A *ᵥ c) {b' : ι → K} {e : κ → K}
    (h : Minimises A b c) (h' : Minimises A b' c') (hb : ∀ i, b' i = (A *ᵥ e) i - b i) :
    c' = e - c := by
  obtain rfl : b' = A *ᵥ e - b := funext hb
  exact hA ((h.reflect e).mulVec_eq h')

/-- A zero column is not taken: without it the values are the same and the coefficients shorter. -/
theorem LeastNorm.eq_zero_of_column [DecidableEq κ] (h : LeastNorm A b c) {j : κ}
    (hj : A.col j = 0) : c j = 0 := by
  have hcolumn : A *ᵥ Pi.single j (c j) = 0 := by
    rw [mulVec_single, hj, smul_zero]
  have hvalues : A *ᵥ (c - Pi.single j (c j)) = A *ᵥ c := by
    rw [mulVec_sub, hcolumn, sub_zero]
  have hnormal : SolvesNormal A b (c - Pi.single j (c j)) := by
    rw [SolvesNormal, hvalues, h.normal]
  have hle := h.le_of_normal _ hnormal
  simp only [sub_dotProduct, dotProduct_sub, dotProduct_single, single_dotProduct, Pi.sub_apply,
    Pi.single_eq_same, sub_self, zero_mul, sub_zero] at hle
  have hsquare : c j * c j ≤ 0 := by linarith
  exact mul_self_eq_zero.mp (le_antisymm hsquare (mul_self_nonneg _))

end TiePoints.LeastSquares
