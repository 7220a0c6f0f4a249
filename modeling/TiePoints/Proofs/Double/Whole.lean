import TiePoints.Proofs.Double.Arithmetic

/-!
# Doubles rounded to whole numbers

A finite double is rounded to the whole number nearest to it, and at a tie to
the one farther from zero.  Every number has just one such whole number, which
moves with the number; so rounding keeps the order of doubles, the infinities
among them, and keeps it still when the results are brought into bounds.
-/

namespace TiePoints.Double

open Float.Model

/-- No whole number lies nearer to `q`, and none that lies as near is farther from zero. -/
structure RoundsTo (q : ℚ) (n : ℤ) : Prop where
  abs_sub_le : ∀ k : ℤ, |q - n| ≤ |q - k|
  abs_le : ∀ k : ℤ, |q - k| = |q - n| → |k| ≤ |n|

/-- What a double becomes between two bounds: nothing tells where an undefined one lies, so that
it becomes zero, and an infinite one becomes the bound on its side. -/
structure RoundsWithin (lo hi : ℤ) (x : Float) (n : ℤ) : Prop where
  undefined : Scalar.isNaN x → n = 0
  finite : Scalar.isFinite x → ∃ k, RoundsTo (value x) k ∧ n = max lo (min k hi)
  above : ¬ Scalar.isFinite x → Scalar.zero < x → n = hi
  below : ¬ Scalar.isFinite x → x < Scalar.zero → n = lo

namespace RoundsTo

variable {q q' : ℚ} {m n : ℤ}

theorem of_abs_sub_le_half (h : |q - n| ≤ 1 / 2) (haway : |q| < |(n : ℚ)| + 1 / 2) :
    RoundsTo q n where
  abs_sub_le _ := abs_sub_le_of_abs_sub_le_half h
  abs_le k hk := by
    have hnear : |(k : ℚ)| - |q| ≤ 1 / 2 := by
      calc |(k : ℚ)| - |q| ≤ |(k : ℚ) - q| := abs_sub_abs_le_abs_sub _ _
        _ = |q - n| := by rw [abs_sub_comm, hk]
        _ ≤ 1 / 2 := h
    have hlt : |(k : ℚ)| < |(n : ℚ)| + 1 := by linarith
    exact Int.lt_add_one_iff.mp (by exact_mod_cast hlt)

theorem mono (h : RoundsTo q m) (h' : RoundsTo q' n) (hq : q ≤ q') : m ≤ n := by
  by_contra hnot
  have hlt : (n : ℚ) < m := by exact_mod_cast not_le.mp hnot
  have hlow := add_le_two_mul_of_abs_le (h.abs_sub_le n) hlt
  have hhigh := two_mul_le_add_of_abs_le (h'.abs_sub_le m) hlt
  -- both numbers are the middle, which goes to one of the two only
  have hmiddle : q = (m + n) / 2 := by linarith
  obtain rfl : q = q' := by linarith
  have htie : |q - n| = |q - m| := by
    have hneg : q - n = -(q - m) := by rw [hmiddle]; ring
    rw [hneg, abs_neg]
  have habs : |m| = |n| := le_antisymm (h'.abs_le m htie.symm) (h.abs_le n htie)
  rcases abs_eq_abs.mp habs with heq | hneg
  · exact hnot heq.le
  · have hzero : q = 0 := by rw [hmiddle, hneg]; push_cast; ring
    have hfar := h.abs_sub_le 0
    rw [hzero, Int.cast_zero, sub_zero, abs_zero, zero_sub, abs_neg, abs_nonpos_iff,
      Int.cast_eq_zero] at hfar
    omega

end RoundsTo

/-! ## Rounding -/

theorem roundsTo_quotient (n : ℤ) {d : ℕ} (hd : 0 < d) :
    RoundsTo (n / d) (Rounding.nearest.quotient n d) := by
  set k : ℕ := (2 * n.natAbs + d) / (2 * d) with hk
  have hquotient : Rounding.nearest.quotient n d = n.sign * k := rfl
  have hd' : (0 : ℚ) < d := Nat.cast_pos.mpr hd
  have hlow : (2 * d * k : ℚ) ≤ 2 * n.natAbs + d := by
    exact_mod_cast Nat.mul_div_le (2 * n.natAbs + d) (2 * d)
  have hhigh : (2 * n.natAbs + d : ℚ) < 2 * d * (k + 1) := by
    exact_mod_cast Nat.lt_mul_div_succ (2 * n.natAbs + d) (by omega : 0 < 2 * d)
  have hsplit : (n : ℚ) = n.sign * n.natAbs := by
    rw [← Int.cast_natCast, ← Int.cast_mul, Int.sign_mul_natAbs]
  have hbelow : (k : ℚ) - 1 / 2 ≤ n.natAbs / d := by
    rw [le_div_iff₀ hd']
    linarith
  have habove : (n.natAbs / d : ℚ) < k + 1 / 2 := by
    rw [div_lt_iff₀ hd']
    linarith
  rcases eq_or_ne n 0 with rfl | hn
  · apply RoundsTo.of_abs_sub_le_half <;> norm_num [hquotient]
  · have hsign : |(n.sign : ℚ)| = 1 := by
      rcases lt_or_gt_of_ne hn with h | h
      · simp [Int.sign_eq_neg_one_of_neg h]
      · simp [Int.sign_eq_one_of_pos h]
    rw [hquotient]
    apply RoundsTo.of_abs_sub_le_half
    · push_cast
      rw [hsplit, mul_div_assoc, ← mul_sub, abs_mul, hsign, one_mul, abs_le]
      constructor <;> linarith
    · push_cast
      rw [hsplit, mul_div_assoc, abs_mul, abs_mul, hsign, one_mul, one_mul,
        abs_of_nonneg (by positivity), abs_of_nonneg (by positivity)]
      exact habove

/-- A scaled number is whole, or a quotient whose rounding is taken. -/
theorem wholeOfScaled_cases (r : Rounding) (n e : ℤ) :
    (∃ k : ℤ, (n * 2 ^ e : ℚ) = k ∧ wholeOfScaled r n e = k) ∨
      ∃ d : ℕ, 0 < d ∧ (n * 2 ^ e : ℚ) = n / d ∧ wholeOfScaled r n e = r.quotient n d := by
  unfold wholeOfScaled
  split_ifs with he
  · left
    have hpow : ((Nat.pow 2 e.toNat : ℕ) : ℚ) = 2 ^ e.toNat := by
      exact_mod_cast rfl
    have hcast : (e.toNat : ℤ) = e := Int.toNat_of_nonneg he
    refine ⟨_, ?_, rfl⟩
    rw [Int.cast_mul, Int.cast_natCast, hpow, ← zpow_natCast, hcast]
  · right
    have hcast : ((-e).toNat : ℤ) = -e := Int.toNat_of_nonneg (by omega)
    have hpow : ((Nat.pow 2 (-e).toNat : ℕ) : ℚ) = 2 ^ (-e).toNat := by
      exact_mod_cast rfl
    refine ⟨Nat.pow 2 (-e).toNat, Nat.two_pow_pos _, ?_, rfl⟩
    rw [hpow, ← zpow_natCast, hcast, zpow_neg, div_inv_eq_mul]

theorem roundsTo_wholeOfScaled (n e : ℤ) :
    RoundsTo (n * 2 ^ e) (wholeOfScaled .nearest n e) := by
  rcases wholeOfScaled_cases .nearest n e with ⟨k, hvalue, hwhole⟩ | ⟨d, hd, hvalue, hwhole⟩
  · rw [hvalue, hwhole]
    apply RoundsTo.of_abs_sub_le_half <;> norm_num
  · rw [hvalue, hwhole]
    exact roundsTo_quotient n hd

theorem floor_mul_zpow (n e : ℤ) : ⌊(n * 2 ^ e : ℚ)⌋ = wholeOfScaled .down n e := by
  rcases wholeOfScaled_cases .down n e with ⟨k, hvalue, hwhole⟩ | ⟨d, -, hvalue, hwhole⟩
  · rw [hvalue, hwhole, Int.floor_intCast]
  · rw [hvalue, hwhole, Rat.floor_intCast_div_natCast]
    rfl

/-! ## Doubles -/

variable {x y : Float}

/-- A finite double is a scaled number and is rounded as one. -/
theorem exists_scaled (hx : Scalar.isFinite x) :
    ∃ n e : ℤ, value x = n * 2 ^ e ∧ ∀ r, Scalar.toWhole r x = .int (wholeOfScaled r n e) := by
  have hfin : x.toModel.unpack.isFinite = true := hx
  have hwhole : ∀ r, Scalar.toWhole r x = toWhole r x := fun _ => rfl
  simp only [hwhole, toWhole, value]
  cases hu : x.toModel.unpack with
  | notANumber => rw [hu] at hfin; cases hfin
  | infinity s => rw [hu] at hfin; cases hfin
  | zero s => exact ⟨0, 0, by norm_num [rational], fun r => rfl⟩
  | finite s m e h => exact ⟨s.apply m, e, rfl, fun r => rfl⟩

theorem toWhole_of_isFinite (hx : Scalar.isFinite x) :
    ∃ k, RoundsTo (value x) k ∧ Scalar.toWhole .nearest x = .int k := by
  obtain ⟨n, e, hvalue, hwhole⟩ := exists_scaled hx
  rw [hvalue, hwhole]
  exact ⟨_, roundsTo_wholeOfScaled n e, rfl⟩

theorem toWhole_down (hx : Scalar.isFinite x) : Scalar.toWhole .down x = .int ⌊value x⌋ := by
  obtain ⟨n, e, hvalue, hwhole⟩ := exists_scaled hx
  rw [hvalue, hwhole, floor_mul_zpow]

theorem toWhole_ne_undefined (hx : ¬ Scalar.isNaN x) :
    Scalar.toWhole .nearest x ≠ .undefined := by
  have hwhole : Scalar.toWhole .nearest x = toWhole .nearest x := rfl
  have hnan : ¬ x.toModel.unpack.isNaN = true := hx
  rw [hwhole, toWhole]
  cases hu : x.toModel.unpack with
  | notANumber => rw [hu] at hnan; exact absurd rfl hnan
  | infinity s => cases s <;> exact Whole.noConfusion
  | _ => exact Whole.noConfusion

theorem unpack_eq_posInf (hx : ¬ Scalar.isFinite x) (hpos : Scalar.zero < x) :
    x.toModel.unpack = .infinity .positive := by
  have hzero : (Scalar.zero : Float).toModel.unpack = .zero .positive := rfl
  have hfin : ¬ x.toModel.unpack.isFinite = true := hx
  have hlt : UnpackedFloat.lt (Scalar.zero : Float).toModel.unpack x.toModel.unpack :=
    of_decide_eq_true hpos
  rw [hzero] at hlt
  cases hu : x.toModel.unpack with
  | notANumber => rw [hu] at hlt; cases hlt
  | infinity s =>
      cases s with
      | negative => rw [hu] at hlt; cases hlt
      | positive => rfl
  | zero s => rw [hu] at hfin; exact absurd rfl hfin
  | finite s m e h => rw [hu] at hfin; exact absurd rfl hfin

theorem unpack_eq_negInf (hx : ¬ Scalar.isFinite x) (hneg : x < Scalar.zero) :
    x.toModel.unpack = .infinity .negative := by
  have hzero : (Scalar.zero : Float).toModel.unpack = .zero .positive := rfl
  have hfin : ¬ x.toModel.unpack.isFinite = true := hx
  have hlt : UnpackedFloat.lt x.toModel.unpack (Scalar.zero : Float).toModel.unpack :=
    of_decide_eq_true hneg
  rw [hzero] at hlt
  cases hu : x.toModel.unpack with
  | notANumber => rw [hu] at hlt; cases hlt
  | infinity s =>
      cases s with
      | negative => rfl
      | positive => rw [hu] at hlt; cases hlt
  | zero s => rw [hu] at hfin; exact absurd rfl hfin
  | finite s m e h => rw [hu] at hfin; exact absurd rfl hfin

theorem roundsWithin_clamp (lo hi : ℤ) (x : Float) :
    RoundsWithin lo hi x ((Scalar.toWhole .nearest x).clamp lo hi) := by
  have hwhole : Scalar.toWhole .nearest x = toWhole .nearest x := rfl
  refine ⟨?_, ?_, ?_, ?_⟩
  · intro h
    have hnan : x.toModel.unpack.isNaN = true := h
    rw [hwhole, toWhole]
    cases hu : x.toModel.unpack with
    | notANumber => rfl
    | _ => rw [hu] at hnan; cases hnan
  · intro h
    obtain ⟨k, hk, heq⟩ := toWhole_of_isFinite h
    exact ⟨k, hk, by rw [heq, Whole.clamp]⟩
  · intro h hpos
    rw [hwhole, toWhole, unpack_eq_posInf h hpos]
    rfl
  · intro h hneg
    rw [hwhole, toWhole, unpack_eq_negInf h hneg]
    rfl

/-- Doubles in order are finite, unless one of them is the infinity at its end. -/
theorem isFinite_or_of_le (h : x ≤ y) :
    Scalar.isFinite x ∧ Scalar.isFinite y ∨ x.toModel.unpack = .infinity .negative ∨
      y.toModel.unpack = .infinity .positive := by
  have hle : UnpackedFloat.le x.toModel.unpack y.toModel.unpack := of_decide_eq_true h
  change x.toModel.unpack.isFinite = true ∧ y.toModel.unpack.isFinite = true ∨ _
  generalize x.toModel.unpack = u at hle
  generalize y.toModel.unpack = v at hle
  cases u with
  | notANumber => cases hle
  | infinity s =>
      cases s with
      | negative => exact .inr (.inl rfl)
      | positive =>
          cases v with
          | infinity t =>
              cases t with
              | negative => cases hle
              | positive => exact .inr (.inr rfl)
          | _ => cases hle
  | _ =>
      cases v with
      | notANumber => cases hle
      | infinity t =>
          cases t with
          | negative => cases hle
          | positive => exact .inr (.inr rfl)
      | _ => exact .inl ⟨rfl, rfl⟩

/-- Rounding keeps the order of doubles. -/
theorem clamp_toWhole_mono {lo hi : ℤ} (hlo : lo ≤ 0) (hhi : 0 ≤ hi) (h : x ≤ y) :
    (Scalar.toWhole .nearest x).clamp lo hi ≤ (Scalar.toWhole .nearest y).clamp lo hi := by
  have hwhole : ∀ z, Scalar.toWhole .nearest z = toWhole .nearest z := fun _ => rfl
  rcases isFinite_or_of_le h with ⟨hx, hy⟩ | hx | hy
  · obtain ⟨m, hm, heq⟩ := toWhole_of_isFinite hx
    obtain ⟨n, hn, heq'⟩ := toWhole_of_isFinite hy
    have hmn := hm.mono hn ((le_iff_value_le hx hy).mp h)
    rw [heq, heq', Whole.clamp, Whole.clamp]
    exact max_le_max_left _ (min_le_min_right _ hmn)
  · rw [hwhole x, toWhole, hx]
    exact (Whole.clamp_mem hlo hhi _).1
  · rw [hwhole y, toWhole, hy]
    exact (Whole.clamp_mem hlo hhi _).2

end TiePoints.Double
