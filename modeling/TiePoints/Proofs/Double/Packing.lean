import TiePoints.Proofs.Double.Nearest

/-!
# Packed numbers

A pattern of bits that is not an infinity and not undefined holds a number of
the format, and a number of the format is held without loss as long as its
exponent fits.  Comparing two such numbers field by field compares the numbers.
-/

namespace TiePoints.Double

open Float.Model UnpackedFloat

variable {f : Format}

/-! ## Exponents -/

theorem minExponent_eq (f : Format) :
    f.minExponent = 1 - (f.exponentBias : ℤ) - f.mantissaBitsWithoutImplicit := by
  have hpow : 1 ≤ 2 ^ (f.exponentBits - 1) := Nat.one_le_two_pow
  simp only [Format.minExponent, Format.exponentBias, Format.mantissaBits]
  push_cast [hpow]
  ring

theorem pow_exponentBits (f : Format) : 2 ^ f.exponentBits = 2 * (f.exponentBias + 1) := by
  have hpow : 1 ≤ 2 ^ (f.exponentBits - 1) := Nat.one_le_two_pow
  have hbits : f.exponentBits = f.exponentBits - 1 + 1 := (Nat.sub_add_cancel f.he).symm
  rw [Format.exponentBias, Nat.sub_add_cancel hpow, Nat.mul_comm, ← pow_succ, ← hbits]

theorem toNat_implicit (m : BitVec f.mantissaBitsWithoutImplicit) :
    (1#1 ++ m).toNat = 2 ^ f.mantissaBitsWithoutImplicit + m.toNat := by
  rw [BitVec.toNat_append, ← Nat.shiftLeft_add_eq_or_of_lt m.isLt]
  simp [Nat.shiftLeft_eq]

theorem toNat_lt_of_ne {e : BitVec f.exponentBits} (h : e ≠ -1#_) :
    e.toNat + 1 < 2 ^ f.exponentBits := by
  have hne : e.toNat ≠ 2 ^ f.exponentBits - 1 := by
    intro heq
    apply h
    rw [BitVec.neg_one_eq_allOnes, ← BitVec.toNat_inj, heq, BitVec.toNat_allOnes]
  have hlt := e.isLt
  omega

theorem abs_rational_lt (s : Sign) {m n k : Nat} {e : Int} (h : 0 < m) (hm : m < 2 ^ n)
    (hk : n + e ≤ k) : |rational (.finite s m e h)| < 2 ^ k := by
  have hmq : (m : ℚ) < 2 ^ (n : ℤ) := by
    rw [zpow_natCast]
    exact_mod_cast hm
  rw [abs_rational, ← zpow_natCast]
  calc (m : ℚ) * 2 ^ e < 2 ^ (n : ℤ) * 2 ^ e := mul_lt_mul_of_pos_right hmq (zpow_pos two_pos e)
    _ = 2 ^ (n + e) := (zpow_add₀ two_ne_zero _ _).symm
    _ ≤ 2 ^ (k : ℤ) := zpow_le_zpow_right₀ one_le_two hk

/-! ## Unpacking -/

/-- What a pattern of bits holds, if it is a number. -/
theorem canonical_unpack {b : BitVec f.numBits} (h : (unpack f b).isFinite) :
    Canonical f (unpack f b) ∧ |rational (unpack f b)| < 2 ^ (f.exponentBias + 1) := by
  have hmin := minExponent_eq f
  have hbits := pow_mantissaBits f
  have hpos : 0 < 2 ^ f.mantissaBitsWithoutImplicit := Nat.two_pow_pos _
  have hm := (unpackMantissa b).isLt
  unfold UnpackedFloat.unpack at h ⊢
  dsimp only at h ⊢
  split_ifs with hlast hzero hfirst hzero
  · simp [hlast, hzero, UnpackedFloat.isFinite] at h
  · simp [hlast, hzero, UnpackedFloat.isFinite] at h
  · exact ⟨.zero _, by simp [rational]⟩
  · have hexp : (unpackExponent b).toNat = 0 := by rw [hfirst]; rfl
    refine ⟨.finite _ _ ?_ ?_ (.inr ?_), abs_rational_lt _ _ hm ?_⟩ <;> omega
  · have hexp : (unpackExponent b).toNat ≠ 0 := by
      intro h0
      exact hfirst (BitVec.eq_of_toNat_eq (by simpa using h0))
    have hlt := toNat_lt_of_ne hlast
    rw [pow_exponentBits] at hlt
    have himplicit := toNat_implicit (unpackMantissa b)
    refine ⟨.finite _ _ ?_ ?_ (.inl ?_), abs_rational_lt (n := f.mantissaBits) _ _ ?_ ?_⟩
    · omega
    · omega
    · omega
    · omega
    · simp only [Format.mantissaBits]
      omega

/-! ## Packing -/

theorem toNat_biased_exponent {n : Nat} (h : n + 1 < 2 ^ f.exponentBits) :
    (BitVec.ofNat f.exponentBits n).toNat = n := by
  rw [BitVec.toNat_ofNat]
  exact Nat.mod_eq_of_lt (by omega)

theorem biased_exponent_ne {n : Nat} (h : n + 1 < 2 ^ f.exponentBits) :
    BitVec.ofNat f.exponentBits n ≠ -1#_ := by
  intro heq
  have hnat := congrArg BitVec.toNat heq
  rw [toNat_biased_exponent h, BitVec.neg_one_eq_allOnes, BitVec.toNat_allOnes] at hnat
  omega

/-- An exponent that does not fit belongs to a number that is too large. -/
theorem add_exponent_lt {s : Sign} {m : Nat} {e : Int} {h : 0 < m} (hbits : 2 ≤ f.exponentBits)
    (hlead : 2 ^ f.mantissaBitsWithoutImplicit ≤ m ∨ e = f.minExponent)
    (hlt : |rational (.finite s m e h)| < 2 ^ (f.exponentBias + 1)) :
    e + f.mantissaBitsWithoutImplicit < f.exponentBias + 1 := by
  rcases hlead with hlow | rfl
  · have hmq : (2 : ℚ) ^ (f.mantissaBitsWithoutImplicit : ℤ) ≤ m := by
      rw [zpow_natCast]
      exact_mod_cast hlow
    rw [abs_rational, ← zpow_natCast] at hlt
    have hpow : (2 : ℚ) ^ (f.mantissaBitsWithoutImplicit + e : ℤ) < 2 ^ (f.exponentBias + 1 : ℤ) :=
      calc (2 : ℚ) ^ (f.mantissaBitsWithoutImplicit + e : ℤ)
          = 2 ^ (f.mantissaBitsWithoutImplicit : ℤ) * 2 ^ e := zpow_add₀ two_ne_zero _ _
        _ ≤ m * 2 ^ e := mul_le_mul_of_nonneg_right hmq (zpow_pos two_pos e).le
        _ < 2 ^ (f.exponentBias + 1 : ℤ) := by exact_mod_cast hlt
    have hexp := (zpow_lt_zpow_iff_right₀ one_lt_two).mp hpow
    omega
  · have hbias := pow_exponentBits f
    have hfour : 2 ^ 2 ≤ 2 ^ f.exponentBits := Nat.pow_le_pow_right two_pos hbits
    rw [minExponent_eq]
    omega

theorem unpack_pack_finite (hbits : 2 ≤ f.exponentBits) {s : Sign} {m : Nat} {e : Int} (h : 0 < m)
    (hm : m < 2 ^ f.mantissaBits) (he : f.minExponent ≤ e)
    (hlead : 2 ^ f.mantissaBitsWithoutImplicit ≤ m ∨ e = f.minExponent)
    (hlt : |rational (.finite s m e h)| < 2 ^ (f.exponentBias + 1)) :
    UnpackedFloat.unpack f (UnpackedFloat.pack f (.finite s m e h)) = .finite s m e h := by
  have hfits := add_exponent_lt hbits hlead hlt
  have hpow := pow_exponentBits f
  have hmin := minExponent_eq f
  have hmantissa := pow_mantissaBits f
  set biased := (e + f.exponentBias + f.mantissaBitsWithoutImplicit).toNat with hbiased
  have hsmall : biased + 1 < 2 ^ f.exponentBits := by omega
  have hpack : UnpackedFloat.pack f (.finite s m e h) =
      if 2 ^ f.exponentBits ≤ biased + 1 then packedInfinity f s
      else if m.log2 + 1 = f.mantissaBits then
        packComponents f s (BitVec.ofNat _ biased) (BitVec.ofNat _ m)
      else packComponents f s 0#_ (BitVec.ofNat _ m) := rfl
  rw [hpack, if_neg (by omega)]
  have hzero : (0#f.exponentBits) ≠ -1#_ := biased_exponent_ne (n := 0) (by omega)
  by_cases hnormal : m.log2 + 1 = f.mantissaBits
  · have hlow : 2 ^ f.mantissaBitsWithoutImplicit ≤ m := by
      have hlog : m.log2 = f.mantissaBitsWithoutImplicit := by
        simp only [Format.mantissaBits] at hnormal
        omega
      rw [← hlog]
      exact Nat.log2_self_le h.ne'
    have himplicit : (1#1 ++ BitVec.ofNat f.mantissaBitsWithoutImplicit m).toNat = m := by
      rw [toNat_implicit, BitVec.toNat_ofNat, Nat.mod_eq_sub_mod hlow, Nat.mod_eq_of_lt (by omega)]
      omega
    have hne : BitVec.ofNat f.exponentBits biased ≠ 0#_ := by
      intro heq
      have hnat := congrArg BitVec.toNat heq
      rw [toNat_biased_exponent hsmall, BitVec.toNat_zero] at hnat
      omega
    rw [if_pos hnormal]
    simp only [UnpackedFloat.unpack, unpackMantissa_packComponents, unpackExponent_packComponents,
      unpackSign_packComponents, Sign.ofBitVec_toBitVec, if_neg (biased_exponent_ne hsmall),
      if_neg hne, toNat_biased_exponent hsmall, himplicit]
    congr 1
    omega
  · have hlow : m < 2 ^ f.mantissaBitsWithoutImplicit := by
      have hlog := (Nat.log2_lt h.ne').mpr hm
      apply (Nat.log2_lt h.ne').mp
      simp only [Format.mantissaBits] at hnormal hlog
      omega
    have hnat : (BitVec.ofNat f.mantissaBitsWithoutImplicit m).toNat = m := by
      rw [BitVec.toNat_ofNat, Nat.mod_eq_of_lt hlow]
    have hne : BitVec.ofNat f.mantissaBitsWithoutImplicit m ≠ 0#_ := by
      intro heq
      have := congrArg BitVec.toNat heq
      rw [hnat, BitVec.toNat_zero] at this
      omega
    rw [if_neg hnormal]
    simp only [UnpackedFloat.unpack, unpackMantissa_packComponents, unpackExponent_packComponents,
      unpackSign_packComponents, Sign.ofBitVec_toBitVec, if_neg hzero, if_true, dif_neg hne, hnat,
      BitVec.toNat_zero]
    congr 1
    omega

theorem unpack_pack (hbits : 2 ≤ f.exponentBits) {u : UnpackedFloat} (hu : Canonical f u)
    (hlt : |rational u| < 2 ^ (f.exponentBias + 1)) :
    UnpackedFloat.unpack f (UnpackedFloat.pack f u) = u := by
  cases hu with
  | zero s => exact unpack_packedZero
  | finite s h hm he hlead => exact unpack_pack_finite hbits h hm he hlead hlt

/-! ## Comparison -/

variable {u v : UnpackedFloat}

theorem lt_of_exponent_lt {m n : Nat} {e d : Int} (hm : m < 2 ^ f.mantissaBits)
    (hn : 2 ^ f.mantissaBitsWithoutImplicit ≤ n ∨ d = f.minExponent) (he : f.minExponent ≤ e)
    (h : e < d) : (m * 2 ^ e : ℚ) < n * 2 ^ d := by
  have hlow := hn.resolve_right (by omega)
  have hstep : (2 : ℚ) * 2 ^ e ≤ 2 ^ d := by
    rw [← zpow_one_add₀ two_ne_zero]
    exact zpow_le_zpow_right₀ one_le_two (by omega)
  have hmq : (m : ℚ) < 2 * n := by
    rw [pow_mantissaBits] at hm
    have hlt : m < 2 * n := by omega
    exact_mod_cast hlt
  calc (m : ℚ) * 2 ^ e < 2 * n * 2 ^ e := mul_lt_mul_of_pos_right hmq (zpow_pos two_pos e)
    _ = n * (2 * 2 ^ e) := by ring
    _ ≤ n * 2 ^ d := mul_le_mul_of_nonneg_left hstep (Nat.cast_nonneg n)

/-- Numbers of the format are compared by exponent first and by mantissa then. -/
theorem compare_magnitude {m n : Nat} {e d : Int} (hm : m < 2 ^ f.mantissaBits)
    (hn : n < 2 ^ f.mantissaBits) (he : f.minExponent ≤ e) (hd : f.minExponent ≤ d)
    (hmlead : 2 ^ f.mantissaBitsWithoutImplicit ≤ m ∨ e = f.minExponent)
    (hnlead : 2 ^ f.mantissaBitsWithoutImplicit ≤ n ∨ d = f.minExponent) :
    (compare e d).then (compare m n) = compare (m * 2 ^ e : ℚ) (n * 2 ^ d) := by
  rcases lt_trichotomy e d with h | rfl | h
  · rw [compare_lt_iff_lt.mpr h, compare_lt_iff_lt.mpr (lt_of_exponent_lt hm hnlead he h)]
    rfl
  · have hunit : (0 : ℚ) < 2 ^ e := zpow_pos two_pos e
    rw [compare_eq_iff_eq.mpr rfl, Ordering.then]
    rcases lt_trichotomy m n with h | rfl | h
    · have hq : (m * 2 ^ e : ℚ) < n * 2 ^ e := mul_lt_mul_of_pos_right (by exact_mod_cast h) hunit
      rw [compare_lt_iff_lt.mpr h, compare_lt_iff_lt.mpr hq]
    · rw [compare_eq_iff_eq.mpr rfl, compare_eq_iff_eq.mpr rfl]
    · have hq : (n * 2 ^ e : ℚ) < m * 2 ^ e := mul_lt_mul_of_pos_right (by exact_mod_cast h) hunit
      rw [compare_gt_iff_gt.mpr h, compare_gt_iff_gt.mpr hq]
  · rw [compare_gt_iff_gt.mpr h, compare_gt_iff_gt.mpr (lt_of_exponent_lt hn hmlead hd h)]
    rfl

theorem compare_neg_neg (a b : ℚ) : compare (-a) (-b) = (compare a b).swap := by
  rcases lt_trichotomy a b with h | rfl | h
  · rw [compare_lt_iff_lt.mpr h, compare_gt_iff_gt.mpr (neg_lt_neg h)]
    rfl
  · rw [compare_eq_iff_eq.mpr rfl, compare_eq_iff_eq.mpr rfl]
    rfl
  · rw [compare_gt_iff_gt.mpr h, compare_lt_iff_lt.mpr (neg_lt_neg h)]
    rfl

theorem rational_positive {m : Nat} {e : Int} (h : 0 < m) :
    rational (.finite .positive m e h) = m * 2 ^ e := by
  simp [rational, Sign.apply]

theorem rational_negative {m : Nat} {e : Int} (h : 0 < m) :
    rational (.finite .negative m e h) = -(m * 2 ^ e) := by
  simp [rational, Sign.apply]

theorem magnitude_pos {m : Nat} (e : Int) (h : 0 < m) : (0 : ℚ) < m * 2 ^ e :=
  mul_pos (by exact_mod_cast h) (zpow_pos two_pos e)

/-- Comparing canonical numbers compares what they stand for. -/
theorem compare_eq (hu : Canonical f u) (hv : Canonical f v) :
    u.compare v = some (compare (rational u) (rational v)) := by
  have hzero : ∀ s, rational (.zero s) = 0 := fun _ => rfl
  cases hu with
  | zero s =>
      cases hv with
      | zero t => rw [hzero, hzero, compare_eq_iff_eq.mpr rfl]; rfl
      | @finite t n d h' hn hd hnlead =>
          have hpos := magnitude_pos d h'
          cases t
          · rw [hzero, rational_negative, compare_gt_iff_gt.mpr (by linarith)]
            rfl
          · rw [hzero, rational_positive, compare_lt_iff_lt.mpr hpos]
            rfl
  | @finite s m e h hm he hmlead =>
      have hpos := magnitude_pos e h
      cases hv with
      | zero t =>
          cases s
          · rw [hzero, rational_negative, compare_lt_iff_lt.mpr (by linarith)]
            rfl
          · rw [hzero, rational_positive, compare_gt_iff_gt.mpr hpos]
            rfl
      | @finite t n d h' hn hd hnlead =>
          have hpos' := magnitude_pos d h'
          have hmagnitude := compare_magnitude hm hn he hd hmlead hnlead
          cases s <;> cases t
          · rw [rational_negative, rational_negative, compare_neg_neg, ← hmagnitude]
            rfl
          · rw [rational_negative, rational_positive, compare_lt_iff_lt.mpr (by linarith)]
            rfl
          · rw [rational_positive, rational_negative, compare_gt_iff_gt.mpr (by linarith)]
            rfl
          · rw [rational_positive, rational_positive, ← hmagnitude]
            rfl

theorem lt_iff (hu : Canonical f u) (hv : Canonical f v) :
    UnpackedFloat.lt u v ↔ rational u < rational v := by
  rw [UnpackedFloat.lt, compare_eq hu hv, ← compare_lt_iff_lt]
  simp

theorem le_iff (hu : Canonical f u) (hv : Canonical f v) :
    UnpackedFloat.le u v ↔ rational u ≤ rational v := by
  rw [UnpackedFloat.le, compare_eq hu hv, ← not_lt, ← compare_gt_iff_gt]
  cases compare (rational u) (rational v) <;> simp

end TiePoints.Double
