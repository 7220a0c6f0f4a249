import TiePoints.Proofs.Double.Whole

/-!
# Doubles split without a rounding

A double between a whole number and the next is split into the whole number and
the rest.  The rest is no larger than the double, and a multiple of its unit, so
it is a double itself and no digit is lost.  Whole numbers with no more bits than
a double has are doubles as well.
-/

namespace TiePoints.Double

open Float.Model UnpackedFloat

/-! ## Numbers of a format -/

section

variable {f : Format} {q : ℚ} {u : UnpackedFloat}

theorem exists_canonical {m : ℕ} (hm : m < 2 ^ f.mantissaBits) {e : ℤ} (he : f.minExponent ≤ e) :
    ∃ v, Canonical f v ∧ rational v = m * 2 ^ e := by
  obtain ⟨k, rfl⟩ := Int.exists_add_of_le he
  rcases Nat.eq_zero_or_pos m with rfl | hpos
  · exact ⟨.zero .positive, .zero _, by simp [rational]⟩
  · have hval : ∀ e : ℤ, rational (.finite .positive m e hpos) = m * 2 ^ e := fun _ => rfl
    -- as long as a number has a bit to spare, half the unit does
    induction k generalizing m with
    | zero => exact ⟨.finite .positive m _ hpos, .finite _ _ hm he (.inr (add_zero _)), hval _⟩
    | succ k ih =>
      rcases Nat.lt_or_ge m (2 ^ f.mantissaBitsWithoutImplicit) with hspare | hlead
      · have hdouble : 2 * m < 2 ^ f.mantissaBits := by
          rw [pow_mantissaBits]
          omega
        obtain ⟨v, hv, hvalue⟩ := ih hdouble (by omega) (by omega) fun _ => rfl
        refine ⟨v, hv, ?_⟩
        rw [hvalue, Nat.cast_succ, ← add_assoc, zpow_add_one₀ two_ne_zero]
        push_cast
        ring
      · exact ⟨.finite .positive m _ hpos, .finite _ _ hm he (.inl hlead), hval _⟩

theorem Nearest.rational_eq (h : Nearest f q u) (hq : ∃ v, Canonical f v ∧ rational v = q) :
    rational u = q := by
  obtain ⟨v, hv, rfl⟩ := hq
  have hle := h.abs_sub_le v hv
  rw [sub_self, abs_zero, abs_nonpos_iff, sub_eq_zero] at hle
  exact hle.symm

/-- What a number has beyond a whole number next to it is a number of the format. -/
theorem Canonical.exists_sub_natCast (hu : Canonical f u) {j : ℕ} (hlow : (j : ℚ) ≤ rational u)
    (hhigh : rational u ≤ j + 1) : ∃ v, Canonical f v ∧ rational v = rational u - j := by
  cases hu with
  | zero s =>
    have hrest : rational (.zero s) - (j : ℚ) = 0 :=
      le_antisymm (sub_nonpos.mpr (Nat.cast_nonneg j)) (sub_nonneg.mpr hlow)
    exact ⟨.zero .positive, .zero _, hrest.symm⟩
  | @finite s m e h hm he hlead =>
    -- both are multiples of the unit of the number, or of one if that is smaller
    set E := min e 0 with hE
    have hunit : (0 : ℚ) < 2 ^ E := zpow_pos two_pos E
    obtain ⟨k, hk⟩ := exists_rational_eq_mul s h (show E ≤ e from min_le_left e 0)
    have hj : (j : ℚ) = (j * 2 ^ (-E).toNat : ℕ) * 2 ^ E := by
      have hcast : ((-E).toNat : ℤ) = -E := Int.toNat_of_nonneg (by omega)
      push_cast
      rw [← zpow_natCast, hcast, mul_assoc, ← zpow_add₀ two_ne_zero, neg_add_cancel, zpow_zero,
        mul_one]
    have hrest : rational (.finite s m e h) - j = (k - (j * 2 ^ (-E).toNat : ℕ) : ℤ) * 2 ^ E := by
      rw [hk]
      conv_lhs => rw [hj]
      push_cast
      ring
    obtain ⟨n, hn⟩ : ∃ n : ℕ, k - (j * 2 ^ (-E).toNat : ℕ) = n := by
      apply Int.eq_ofNat_of_zero_le
      have hnonneg := sub_nonneg.mpr hlow
      rw [hrest] at hnonneg
      exact_mod_cast nonneg_of_mul_nonneg_left hnonneg hunit
    rw [hn, Int.cast_natCast] at hrest
    have hbound : n < 2 ^ f.mantissaBits := by
      rcases le_total e 0 with hneg | hpos
      · have hle : (n * 2 ^ E : ℚ) ≤ m * 2 ^ E := by
          calc (n * 2 ^ E : ℚ) = rational (.finite s m e h) - j := hrest.symm
            _ ≤ |rational (.finite s m e h)| :=
                (sub_le_self _ (Nat.cast_nonneg j)).trans (le_abs_self _)
            _ = m * 2 ^ E := by rw [abs_rational, hE, min_eq_left hneg]
        have hnm : n ≤ m := by exact_mod_cast le_of_mul_le_mul_right hle hunit
        omega
      · have hone : (n : ℚ) ≤ 1 := by
          rw [hE, min_eq_right hpos, zpow_zero, mul_one] at hrest
          linarith
        have hn1 : n ≤ 1 := by exact_mod_cast hone
        have hbits := pow_mantissaBits f
        have hpow : 0 < 2 ^ f.mantissaBitsWithoutImplicit := Nat.two_pow_pos _
        omega
    obtain ⟨v, hv, hvalue⟩ := exists_canonical hbound
      (show f.minExponent ≤ E from le_min he (minExponent_nonpos f))
    exact ⟨v, hv, hvalue.trans hrest.symm⟩

end

/-! ## Doubles -/

variable {x : Float}

theorem isFinite_ofNat {n : ℕ} (h : n < 2 ^ 53) : Scalar.isFinite (Scalar.ofNat n : Float) :=
  (isNearest_ofNat h.le (by decide)).isFinite

theorem value_ofNat {n : ℕ} (h : n < 2 ^ 53) : value (Scalar.ofNat n : Float) = n := by
  obtain ⟨v, hv, hvalue⟩ := exists_canonical (f := .binary64) h (minExponent_nonpos _)
  refine Nearest.rational_eq (isNearest_ofNat h.le (by decide)) ⟨v, hv, ?_⟩
  rw [hvalue, zpow_zero, mul_one]

/-- The rest beyond a whole number next to a double is not rounded. -/
theorem value_sub_ofNat (hx : Scalar.isFinite x) {j : ℕ} (hj : j < 2 ^ 53)
    (hlow : (j : ℚ) ≤ value x) (hhigh : value x ≤ j + 1) :
    Scalar.isFinite (x - Scalar.ofNat j) ∧ value (x - Scalar.ofNat j) = value x - j := by
  have hrange : |value x - value (Scalar.ofNat j : Float)| ≤ 2 ^ 1023 := by
    rw [value_ofNat hj, abs_of_nonneg (sub_nonneg.mpr hlow)]
    exact (sub_le_iff_le_add'.mpr hhigh).trans (one_le_pow₀ one_le_two)
  have hnear := isNearest_sub hx (isFinite_ofNat hj) hrange
  rw [value_ofNat hj] at hnear
  exact ⟨hnear.isFinite,
    Nearest.rational_eq hnear ((canonical_of_isFinite hx).exists_sub_natCast hlow hhigh)⟩

end TiePoints.Double
