import Mathlib
import TiePoints.Double.Scalar
import TiePoints.Axis

/-!
# Scenes have pixels

The length of a scene along an axis is a count times a spacing, plus one, with
both operations rounded and the sum rounded again to a whole number.  None of
these roundings brings it below one.  A product of a count and a positive
spacing is not negative, whatever it is rounded to; and in the sum the leading
bit of the one is still there when the number is cut to its 53 bits, where it
can only move up.
-/

namespace TiePoints

namespace Double

open Float.Model UnpackedFloat

/-- Zero, a number or infinity, and that with the positive sign. -/
inductive NonNegative : UnpackedFloat → Prop
  | infinity : NonNegative (.infinity .positive)
  | zero : NonNegative (.zero .positive)
  | finite (m : Nat) (e : Int) (h : 0 < m) : NonNegative (.finite .positive m e h)

/-- Infinity, or a number whose 53 bits start at the unit or above. -/
inductive AtLeastOne : UnpackedFloat → Prop
  | infinity : AtLeastOne (.infinity .positive)
  | finite {m : Nat} {e : Int} {h : 0 < m} (hm : m.log2 = 52) (he : -52 ≤ e) :
      AtLeastOne (.finite .positive m e h)

/-! ## Leading bits -/

theorem log2_half (m : Nat) : (m / 2).log2 = m.log2 - 1 := by
  rw [Nat.log2_eq_log_two, Nat.log2_eq_log_two, Nat.log_div_base]

theorem log2_mono {m n : Nat} (h : m ≤ n) : m.log2 ≤ n.log2 := by
  rw [Nat.log2_eq_log_two, Nat.log2_eq_log_two]
  exact Nat.log_mono_right h

theorem log2_shiftLeft {m : Nat} (hm : m ≠ 0) (k : Nat) : (m <<< k).log2 = m.log2 + k := by
  induction k with
  | zero => rfl
  | succ k ih =>
      have hne : m <<< k ≠ 0 := by
        rw [Nat.shiftLeft_eq]
        exact Nat.mul_ne_zero hm (Nat.two_pow_pos k).ne'
      rw [Nat.shiftLeft_succ, Nat.log2_two_mul hne, ih]
      omega

theorem log2_mantissa_shiftRight (em : ExtendedMantissa) (k : Nat) :
    (em >>> k).mantissa.log2 = em.mantissa.log2 - k := by
  induction k with
  | zero => rfl
  | succ k ih =>
      have hstep : (em >>> (k + 1)).mantissa = (em >>> k).mantissa / 2 := rfl
      rw [hstep, log2_half, ih]
      omega

/-! ## Rounding -/

theorem le_roundedMantissa (em : ExtendedMantissa) : em.mantissa ≤ em.roundedMantissa := by
  obtain ⟨m, roundBit, stickyBit⟩ := em
  cases roundBit <;> cases stickyBit <;>
    simp [ExtendedMantissa.roundedMantissa, ExtendedMantissa.accuracy,
      Accuracy.roundToNearestEven]

theorem mantissa_ofMantissaAndAccuracy (m : Nat) (a : Accuracy) :
    (ExtendedMantissa.ofMantissaAndAccuracy m a).mantissa = m := by
  cases a with
  | exact => rfl
  | inexact o => cases o <;> rfl

/-- From one on the exponent of a rounded number is 53 bits below its leading bit. -/
theorem targetExponent_eq {m : Nat} {e : Int} (h : 0 ≤ m.log2 + e) :
    Format.binary64.targetExponent (totalExponent m e) = m.log2 + e - 52 := by
  have hmin : Format.binary64.minExponent = -1074 := rfl
  have hbits : (Format.binary64.mantissaBits : Int) = 53 := rfl
  rw [Format.targetExponent, totalExponent, hmin, hbits]
  omega

theorem shiftToTargetExponent_eq {m : Nat} {e : Int} (hm : 52 ≤ m.log2) (h : 0 ≤ m.log2 + e)
    (a : Accuracy) :
    (shiftToTargetExponent .binary64 m e a).1.mantissa.log2 = 52 ∧
      (shiftToTargetExponent .binary64 m e a).2 = m.log2 + e - 52 := by
  have hshift : (m.log2 + e - 52 - e).toNat = m.log2 - 52 := by omega
  simp only [shiftToTargetExponent, shiftToExponent, targetExponent_eq h, hshift,
    log2_mantissa_shiftRight, mantissa_ofMantissaAndAccuracy]
  omega

theorem roundWithAccuracy_atLeastOne {m : Nat} {e : Int} (hm : 52 ≤ m.log2)
    (h : 0 ≤ m.log2 + e) (a : Accuracy) :
    AtLeastOne (roundWithAccuracy .binary64 .positive m e a) := by
  obtain ⟨hlog, hexp⟩ := shiftToTargetExponent_eq hm h a
  rcases hfirst : shiftToTargetExponent .binary64 m e a with ⟨em, e₁⟩
  rw [hfirst] at hlog hexp
  simp only at hlog hexp
  -- rounding may carry into a new leading bit, but never loses the one there is
  have hrounded : 52 ≤ em.roundedMantissa.log2 := by
    rw [← hlog]
    exact log2_mono (le_roundedMantissa em)
  have hunit : 0 ≤ em.roundedMantissa.log2 + e₁ := by omega
  obtain ⟨hlog', hexp'⟩ := shiftToTargetExponent_eq hrounded hunit .exact
  rcases hsecond : shiftToTargetExponent .binary64 em.roundedMantissa e₁ .exact with ⟨em', e₂⟩
  rw [hsecond] at hlog' hexp'
  simp only at hlog' hexp'
  have hne : em'.mantissa ≠ 0 := by
    intro h0
    simp [h0] at hlog'
  simp only [roundWithAccuracy, hfirst, hsecond, dif_neg hne]
  exact .finite hlog' (by omega)

theorem round_atLeastOne {m : Nat} {e : Int} (hm : m ≠ 0) (h : 0 ≤ m.log2 + e) :
    AtLeastOne (UnpackedFloat.round .binary64 .positive m e) := by
  simp only [UnpackedFloat.round, decreaseExponent, targetExponent_eq h]
  apply roundWithAccuracy_atLeastOne
  · rw [log2_shiftLeft hm]
    omega
  · rw [log2_shiftLeft hm]
    omega

theorem roundWithAccuracy_nonNegative (f : Format) (m : Nat) (e : Int) (a : Accuracy) :
    NonNegative (roundWithAccuracy f .positive m e a) := by
  simp only [roundWithAccuracy]
  split
  · exact .zero
  · exact .finite _ _ _

theorem normalize_natCast {f : Format} {n : Nat} (hn : n ≠ 0) (e : Int) (s : Sign) :
    UnpackedFloat.normalize f n e s = UnpackedFloat.round f .positive n e := by
  have hgt : compare (n : Int) 0 = .gt := Int.compare_eq_gt.mpr (by omega)
  simp only [UnpackedFloat.normalize, hgt, Int.toNat_natCast]

theorem ofNat_nonNegative (f : Format) (n : Nat) : NonNegative (UnpackedFloat.ofNat f n) := by
  rcases Nat.eq_zero_or_pos n with rfl | hn
  · exact .zero
  · rw [UnpackedFloat.ofNat, UnpackedFloat.ofInt, normalize_natCast hn.ne']
    exact roundWithAccuracy_nonNegative _ _ _ _

/-! ## Packing -/

theorem toNat_biased {b : Nat} (h : ¬ 2 ^ 11 ≤ b + 1) : (BitVec.ofNat 11 b).toNat = b := by
  rw [BitVec.toNat_ofNat]
  exact Nat.mod_eq_of_lt (by omega)

/-- An exponent that fits is not the one that marks infinities. -/
theorem biased_ne {b : Nat} (h : ¬ 2 ^ 11 ≤ b + 1) : BitVec.ofNat 11 b ≠ -1#11 := by
  intro heq
  have hnat := congrArg BitVec.toNat heq
  rw [toNat_biased h] at hnat
  have hlast : (-1#11).toNat = 2047 := rfl
  omega

theorem log2_implicit (m : BitVec 52) : (1#1 ++ m).toNat.log2 = 52 := by
  have hlow : 2 ^ 52 ≤ (1#1 ++ m).toNat := by
    rw [BitVec.toNat_append]
    exact Nat.left_le_or
  have hhigh : (1#1 ++ m).toNat < 2 ^ 53 := (1#1 ++ m).isLt
  have hne : (1#1 ++ m).toNat ≠ 0 := by omega
  exact (Nat.log2_eq_iff hne).mpr ⟨hlow, hhigh⟩

theorem nonNegative_unpack_packComponents {e : BitVec 11} {m : BitVec 52}
    (h : e = -1#11 → m = 0#52) :
    NonNegative (UnpackedFloat.unpack .binary64 (packComponents .binary64 .positive e m)) := by
  simp only [UnpackedFloat.unpack, unpackMantissa_packComponents, unpackExponent_packComponents,
    unpackSign_packComponents, Sign.ofBitVec_toBitVec]
  split_ifs with hlast hm hfirst hm
  · exact .infinity
  · exact absurd (h hlast) hm
  · exact .zero
  · exact .finite _ _ _
  · exact .finite _ _ _

theorem atLeastOne_unpack_packComponents {e : BitVec 11} {m : BitVec 52} (hlast : e ≠ -1#11)
    (hlow : 1023 ≤ e.toNat) :
    AtLeastOne (UnpackedFloat.unpack .binary64 (packComponents .binary64 .positive e m)) := by
  have hfirst : e ≠ 0#11 := by
    rintro rfl
    simp at hlow
  have hbias : (Format.binary64.exponentBias : Int) = 1023 := rfl
  simp only [UnpackedFloat.unpack, unpackMantissa_packComponents, unpackExponent_packComponents,
    unpackSign_packComponents, Sign.ofBitVec_toBitVec, if_neg hlast, if_neg hfirst, hbias]
  exact .finite (log2_implicit m) (by omega)

theorem NonNegative.unpack_pack {x : UnpackedFloat} (h : NonNegative x) :
    NonNegative (UnpackedFloat.unpack .binary64 (UnpackedFloat.pack .binary64 x)) := by
  cases h with
  | infinity => exact nonNegative_unpack_packComponents fun _ => rfl
  | zero => exact nonNegative_unpack_packComponents fun _ => rfl
  | finite m e h =>
      simp only [UnpackedFloat.pack]
      split_ifs with hover hlog
      · exact nonNegative_unpack_packComponents fun _ => rfl
      · exact nonNegative_unpack_packComponents fun hlast => absurd hlast (biased_ne hover)
      · exact nonNegative_unpack_packComponents fun hlast => by cases hlast

theorem AtLeastOne.unpack_pack {x : UnpackedFloat} (h : AtLeastOne x) :
    AtLeastOne (UnpackedFloat.unpack .binary64 (UnpackedFloat.pack .binary64 x)) := by
  cases h with
  | infinity => exact .infinity
  | @finite m e h hm he =>
      have hbias : (Format.binary64.exponentBias : Int) = 1023 := rfl
      have hlog : m.log2 + 1 = Format.binary64.mantissaBits := by rw [hm]; rfl
      simp only [UnpackedFloat.pack, if_pos hlog]
      split_ifs with hover
      · exact .infinity
      · apply atLeastOne_unpack_packComponents (biased_ne hover)
        rw [toNat_biased hover, hbias]
        omega

/-! ## Operations -/

theorem NonNegative.mul {f : Format} {x y : UnpackedFloat} (hx : NonNegative x) {m : Nat} {e : Int}
    {h : 0 < m} (hy : y = .finite .positive m e h) : NonNegative (UnpackedFloat.mul f x y) := by
  subst hy
  cases hx with
  | infinity => exact .infinity
  | zero => exact .zero
  | finite m' e' h' => exact roundWithAccuracy_nonNegative f _ _ _

theorem unpack_one : (Scalar.one : Float).toModel.unpack =
    .finite .positive 4503599627370496 (-52) (by decide) := by
  rfl

theorem NonNegative.add_one {x : UnpackedFloat} (hx : NonNegative x) :
    AtLeastOne (UnpackedFloat.add .binary64 x (Scalar.one : Float).toModel.unpack) := by
  rw [unpack_one]
  cases hx with
  | infinity => exact .infinity
  | zero => exact .finite rfl le_rfl
  | finite m e h =>
      have hone : (4503599627370496 : Nat).log2 = 52 := by decide +kernel
      -- the sum has the leading bit of the one, or a higher one
      have hlog := log2_mono (Nat.le_add_left (4503599627370496 <<< (-52 - min e (-52)).toNat)
        (m <<< (e - min e (-52)).toNat))
      rw [log2_shiftLeft (by decide), hone] at hlog
      simp only [UnpackedFloat.add, decreaseExponent, Sign.apply, ← Int.natCast_add]
      rw [normalize_natCast]
      · exact round_atLeastOne (by rintro h0; simp [h0] at hlog) (by omega)
      · rintro h0
        simp [h0] at hlog

/-! ## Whole numbers -/

theorem one_le_wholeOfScaled {m : Nat} {e : Int} (hm : m.log2 = 52) (he : -52 ≤ e) :
    1 ≤ wholeOfScaled .nearest m e := by
  have hne : m ≠ 0 := by
    rintro rfl
    simp at hm
  have hlow : 2 ^ 52 ≤ m := hm ▸ Nat.log2_self_le hne
  unfold wholeOfScaled
  split_ifs with h
  · have hpow : 0 < m * Nat.pow 2 e.toNat := Nat.mul_pos (by omega) (Nat.two_pow_pos _)
    exact_mod_cast hpow
  · -- the unit is a bit of the number, so half of it is no more than the number
    have hunit : Nat.pow 2 (-e).toNat ≤ m :=
      le_trans (Nat.pow_le_pow_right (by decide) (by omega)) hlow
    have hpos : 0 < Nat.pow 2 (-e).toNat := Nat.two_pow_pos _
    have hquot : 1 ≤ (2 * m + Nat.pow 2 (-e).toNat) / (2 * Nat.pow 2 (-e).toNat) :=
      (Nat.one_le_div_iff (by omega)).mpr (by omega)
    have hsign : (m : Int).sign = 1 := Int.sign_eq_one_of_pos (by omega)
    simp only [Rounding.quotient, hsign, one_mul, Int.natAbs_natCast]
    exact_mod_cast hquot

theorem one_le_toIndex {n : Int} (h : 1 ≤ n) : 1 ≤ (Whole.int n).toIndex := by
  have hlimit : (Index.limit : Int) = 18446744073709551616 := rfl
  simp only [Whole.toIndex, Whole.clamp, hlimit]
  omega

theorem AtLeastOne.nearestIndex_pos {x : Float} (h : AtLeastOne x.toModel.unpack) :
    0 < Scalar.nearestIndex x := by
  have hwhole : Scalar.toWhole .nearest x = toWhole .nearest x := rfl
  rw [Scalar.nearestIndex, hwhole, toWhole]
  generalize x.toModel.unpack = u at h
  cases h with
  | infinity => decide
  | finite hm he => exact one_le_toIndex (one_le_wholeOfScaled hm he)

/-- A finite double above zero. -/
theorem unpack_eq_finite_of_pos {x : Float} (hpos : Scalar.zero < x) (hfin : Scalar.isFinite x) :
    ∃ m e h, x.toModel.unpack = .finite .positive m e h := by
  have hzero : (Scalar.zero : Float).toModel.unpack = .zero .positive := rfl
  have hlt : UnpackedFloat.lt (Scalar.zero : Float).toModel.unpack x.toModel.unpack = true :=
    of_decide_eq_true hpos
  have hfin' : x.toModel.unpack.isFinite = true := hfin
  rw [hzero] at hlt
  generalize x.toModel.unpack = u at hlt hfin'
  cases u with
  | notANumber => cases hfin'
  | infinity s => cases hfin'
  | zero s => cases hlt
  | finite s m e h =>
      cases s with
      | negative => cases hlt
      | positive => exact ⟨m, e, h, rfl⟩

end Double

open Double in
theorem Axis.sceneLength_pos {a : Axis Float} (h : a.hasPositiveSpacing) : 0 < a.sceneLength := by
  obtain ⟨hpos, hfin⟩ := Axis.hasPositiveSpacing_iff.mp h
  obtain ⟨m, e, hm, hspacing⟩ := unpack_eq_finite_of_pos hpos hfin
  have hcount : NonNegative (Scalar.ofNat (a.points - 1) : Float).toModel.unpack :=
    (ofNat_nonNegative .binary64 _).unpack_pack
  have hspan : NonNegative (Scalar.ofNat (a.points - 1) * a.spacing : Float).toModel.unpack :=
    (hcount.mul hspacing).unpack_pack
  exact AtLeastOne.nearestIndex_pos hspan.add_one.unpack_pack

end TiePoints
