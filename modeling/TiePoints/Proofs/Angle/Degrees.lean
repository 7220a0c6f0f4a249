import TiePoints.Components
import TiePoints.Proofs.Double.Arithmetic

/-!
# Angles in degrees

The direction of a vector comes in radians between `-π` and `π`, both included,
where `π` stands for the double nearest to it.  In degrees it lies between `-180`
and `180`, and it is `-180` for the one double `-π` only.  Turned once around a
direction below zero lies between `180` and `360`; the end is not in the open
range, but a direction that is closer to zero than half the gap below `360` is
rounded to it.
-/

namespace TiePoints

open Double Float.Model.UnpackedFloat

/-- What is documented of sines, cosines and directions in double precision. -/
structure Circular.Documented (c : Circular Float) : Prop where
  pi_eq : c.pi = Float.ofBits 0x400921fb54442d18
  sin_mem : ∀ x : Float, Scalar.isFinite x → -1 ≤ c.sin x ∧ c.sin x ≤ 1
  cos_mem : ∀ x : Float, Scalar.isFinite x → -1 ≤ c.cos x ∧ c.cos x ≤ 1
  /-- The direction is an angle of the closed half turn on either side. -/
  atan2_mem : ∀ y x : Float, ¬ Scalar.isNaN y → ¬ Scalar.isNaN x →
    -c.pi ≤ c.atan2 y x ∧ c.atan2 y x ≤ c.pi

namespace Double

/-! ## Constants -/

/-- The double nearest to `π`. -/
def piDouble : Float := Float.ofBits 0x400921fb54442d18

/-- What radians are multiplied by. -/
def degreesPerRadian : Float := Scalar.ofNat 180 / piDouble

/-- What degrees are multiplied by. -/
def radiansPerDegree : Float := piDouble / Scalar.ofNat 180

theorem value_of_unpack {x : Float} {q : ℚ} (s : Sign) (m : Nat) (e : Int) (h : 0 < m)
    (hx : x.toModel.unpack = .finite s m e h) (hq : s.apply m * 2 ^ e = q) : value x = q := by
  rw [value, hx, ← hq]
  rfl

theorem value_piDouble : value piDouble = 7074237752028440 / 2 ^ 51 :=
  value_of_unpack .positive 7074237752028440 (-51) (by decide) rfl (by norm_num [Sign.apply])

theorem value_degreesPerRadian : value degreesPerRadian = 8063664102031864 / 2 ^ 47 :=
  value_of_unpack .positive 8063664102031864 (-47) (by decide) rfl (by norm_num [Sign.apply])

theorem value_radiansPerDegree : value radiansPerDegree = 5030569068109113 / 2 ^ 58 :=
  value_of_unpack .positive 5030569068109113 (-58) (by decide) rfl (by norm_num [Sign.apply])

theorem value_neg_piDouble : value (-piDouble) = -7074237752028440 / 2 ^ 51 :=
  value_of_unpack .negative 7074237752028440 (-51) (by decide) rfl (by norm_num [Sign.apply])

theorem value_180 : value (Scalar.ofNat 180) = 180 :=
  value_of_unpack .positive 6333186975989760 (-45) (by decide) rfl (by norm_num [Sign.apply])

theorem value_360 : value (Scalar.ofNat 360) = 360 :=
  value_of_unpack .positive 6333186975989760 (-44) (by decide) rfl (by norm_num [Sign.apply])

theorem value_zero : value (0 : Float) = 0 := by
  rfl

theorem value_neg_180 : value (-180 : Float) = -180 :=
  value_of_unpack .negative 6333186975989760 (-45) (by decide) rfl (by norm_num [Sign.apply])

/-- The double below 180. -/
theorem value_below_180 : value (Float.ofBits 0x40667fffffffffff) = 180 - 1 / 2 ^ 45 :=
  value_of_unpack .positive 6333186975989759 (-45) (by decide) rfl (by norm_num [Sign.apply])

/-- The double below 360. -/
theorem value_below_360 : value (Float.ofBits 0x40767fffffffffff) = 360 - 1 / 2 ^ 44 :=
  value_of_unpack .positive 6333186975989759 (-44) (by decide) rfl (by norm_num [Sign.apply])

/-! ## Degrees -/

section Degrees

variable {a : Float}

theorem abs_mul_degreesPerRadian_le (hpi : |value a| ≤ value piDouble) :
    |value a * value degreesPerRadian| ≤ 180 := by
  have hk : |value degreesPerRadian| = 8063664102031864 / 2 ^ 47 := by
    rw [value_degreesPerRadian]
    exact abs_of_pos (by norm_num)
  rw [value_piDouble] at hpi
  rw [abs_mul, hk]
  calc |value a| * (8063664102031864 / 2 ^ 47)
      ≤ 7074237752028440 / 2 ^ 51 * (8063664102031864 / 2 ^ 47) :=
        mul_le_mul_of_nonneg_right hpi (by norm_num)
    _ ≤ 180 := by norm_num

theorem isNearest_degrees (ha : Scalar.isFinite a) (hpi : |value a| ≤ value piDouble) :
    IsNearest (value a * value degreesPerRadian) (a * degreesPerRadian) := by
  have hk : Scalar.isFinite degreesPerRadian := by decide +kernel
  apply isNearest_mul ha hk
  have hbound : (180 : ℚ) ≤ 2 ^ 8 := by norm_num
  exact (abs_mul_degreesPerRadian_le hpi).trans
    (hbound.trans (pow_le_pow_right₀ one_le_two (by norm_num)))

theorem abs_degrees_le (ha : Scalar.isFinite a) (hpi : |value a| ≤ value piDouble) :
    |value (a * degreesPerRadian)| ≤ 180 := by
  have hnear := isNearest_degrees ha hpi
  have hq := abs_le.mp (abs_mul_degreesPerRadian_le hpi)
  have hend : Canonical .binary64 (Scalar.ofNat 180 : Float).toModel.unpack :=
    canonical_of_isFinite (by decide +kernel)
  have hval : rational (Scalar.ofNat 180 : Float).toModel.unpack = 180 := value_180
  rw [abs_le]
  constructor
  · have hlow := hnear.ge_of_ge hend.neg (by rw [rational_neg, hval]; exact hq.1)
    rwa [rational_neg, hval] at hlow
  · have hhigh := hnear.le_of_le hend (by rw [hval]; exact hq.2)
    rwa [hval] at hhigh

/-- Above `-π` there is a gap in the doubles. -/
theorem gap_above_neg_pi (ha : Scalar.isFinite a) (hpi : |value a| ≤ value piDouble)
    (hne : a ≠ -piDouble) : -7074237752028439 / 2 ^ 51 ≤ value a := by
  rcases le_or_gt |value a| 2 with hsmall | hlarge
  · have hlow := (abs_le.mp hsmall).1
    linarith
  · -- beyond 2 the doubles are multiples of `2 ^ -51`, and `-π` is the last one in the range
    obtain ⟨k, hk⟩ := exists_rational_eq_mul_of_lt (canonical_of_isFinite ha) (E := -51) (by
      have hunit : (2 : ℚ) ^ 52 * 2 ^ (-51 : ℤ) = 2 := by norm_num
      change (2 : ℚ) ^ 52 * 2 ^ (-51 : ℤ) < |value a|
      rwa [hunit])
    replace hk : value a = k * 2 ^ (-51 : ℤ) := hk
    have hfin : Scalar.isFinite (-piDouble) := by decide +kernel
    have hneq : value a ≠ value (-piDouble) := by
      intro heq
      refine hne (eq_of_value_eq ha hfin heq ?_)
      rw [heq, value_neg_piDouble]
      norm_num
    have hlow := (abs_le.mp hpi).1
    have hunit : (2 : ℚ) ^ (-51 : ℤ) = 1 / 2 ^ 51 := by norm_num
    rw [value_neg_piDouble, hk, hunit] at hneq
    rw [value_piDouble, hk, hunit] at hlow
    have hle : -7074237752028440 ≤ k := by
      have hq : (-7074237752028440 : ℚ) ≤ k := by linarith
      exact_mod_cast hq
    have hkne : k ≠ -7074237752028440 := by
      rintro rfl
      apply hneq
      norm_num
    have hq : (-7074237752028439 : ℚ) ≤ k := by
      have hlt : -7074237752028439 ≤ k := by omega
      exact_mod_cast hlt
    rw [hk, hunit]
    linarith

/-- Only one double is turned into `-180`. -/
theorem neg_lt_degrees (ha : Scalar.isFinite a) (hpi : |value a| ≤ value piDouble)
    (hne : a ≠ -piDouble) : -180 < value (a * degreesPerRadian) := by
  have hnear := isNearest_degrees ha hpi
  have hgap := gap_above_neg_pi ha hpi hne
  have hq : -7074237752028439 / 2 ^ 51 * (8063664102031864 / 2 ^ 47) ≤
      value a * value degreesPerRadian := by
    rw [value_degreesPerRadian]
    exact mul_le_mul_of_nonneg_right hgap (by norm_num)
  have hbelow : Canonical .binary64 (Float.ofBits 0x40667fffffffffff).toModel.unpack :=
    canonical_of_isFinite (by decide +kernel)
  have hval : rational (Float.ofBits 0x40667fffffffffff).toModel.unpack.neg =
      -(180 - 1 / 2 ^ 45) := by
    rw [rational_neg]
    exact congrArg _ value_below_180
  refine hnear.gt_of_lt_two_mul hbelow.neg ?_ ?_
  · rw [hval]
    norm_num
  · rw [hval]
    have hmid : (-180 : ℚ) + -(180 - 1 / 2 ^ 45) <
        2 * (-7074237752028439 / 2 ^ 51 * (8063664102031864 / 2 ^ 47)) := by norm_num
    linarith

theorem neg_piDouble_degrees : -piDouble * degreesPerRadian = -180 := by
  decide +kernel

end Degrees

/-! ## Turns -/

/-- Half the gap between 360 and the next double below it, taken from zero. -/
def brink : Float := -1 / 35184372088832

theorem value_brink : value brink = -1 / 2 ^ 45 :=
  value_of_unpack .negative 4503599627370496 (-97) (by decide) rfl (by norm_num [Sign.apply])

section Turns

variable {d : Float}

theorem isNearest_turn (hd : Scalar.isFinite d) (hlo : -180 ≤ value d) (h0 : value d < 0) :
    IsNearest (value d + 360) (d + Scalar.ofNat 360) := by
  have hfin : Scalar.isFinite (Scalar.ofNat 360 : Float) := by decide +kernel
  have hrange : |value d + value (Scalar.ofNat 360)| ≤ 2 ^ 1023 := by
    have hbound : (360 : ℚ) ≤ 2 ^ 9 := by norm_num
    rw [value_360, abs_of_pos (by linarith)]
    exact (by linarith : value d + 360 ≤ 360).trans
      (hbound.trans (pow_le_pow_right₀ one_le_two (by norm_num)))
  have hnear := isNearest_add hd hfin hrange
  rwa [value_360] at hnear

theorem turn_mem (hd : Scalar.isFinite d) (hlo : -180 ≤ value d) (h0 : value d < 0) :
    180 ≤ value (d + Scalar.ofNat 360) ∧ value (d + Scalar.ofNat 360) ≤ 360 := by
  have hnear := isNearest_turn hd hlo h0
  have h180 : Canonical .binary64 (Scalar.ofNat 180 : Float).toModel.unpack :=
    canonical_of_isFinite (by decide +kernel)
  have h360 : Canonical .binary64 (Scalar.ofNat 360 : Float).toModel.unpack :=
    canonical_of_isFinite (by decide +kernel)
  constructor
  · rw [← value_180]
    exact hnear.ge_of_ge h180 (show value (Scalar.ofNat 180) ≤ _ by rw [value_180]; linarith)
  · rw [← value_360]
    exact hnear.le_of_le h360 (show _ ≤ value (Scalar.ofNat 360) by rw [value_360]; linarith)

/-- A turn of a direction below zero ends at 360 if and only if the direction lies on the brink. -/
theorem turn_lt_iff (hd : Scalar.isFinite d) (hlo : -180 ≤ value d) (h0 : value d < 0) :
    value (d + Scalar.ofNat 360) < 360 ↔ value d < value brink := by
  have hnear := isNearest_turn hd hlo h0
  have hbrink : Scalar.isFinite brink := by decide +kernel
  constructor
  · -- the brink itself is turned to 360, and what lies above it is turned no lower
    intro hlt
    by_contra hge
    have hturn : brink + Scalar.ofNat 360 = Scalar.ofNat 360 := by decide +kernel
    have hnear' := isNearest_turn hbrink (by rw [value_brink]; norm_num)
      (by rw [value_brink]; norm_num)
    rcases (not_lt.mp hge).lt_or_eq with hgt | heq
    · have hmono := hnear'.mono hnear (by linarith)
      replace hmono : value (brink + Scalar.ofNat 360) ≤ value (d + Scalar.ofNat 360) := hmono
      rw [hturn, value_360] at hmono
      linarith
    · obtain rfl := eq_of_value_eq hbrink hd heq (by rw [value_brink]; norm_num)
      rw [hturn, value_360] at hlt
      exact lt_irrefl _ hlt
  · -- below the brink the double before 360 is nearer
    intro hlt
    have hbelow : Canonical .binary64 (Float.ofBits 0x40767fffffffffff).toModel.unpack :=
      canonical_of_isFinite (by decide +kernel)
    have hval : rational (Float.ofBits 0x40767fffffffffff).toModel.unpack = 360 - 1 / 2 ^ 44 :=
      value_below_360
    rw [value_brink] at hlt
    refine hnear.lt_of_two_mul_lt hbelow ?_ ?_
    · rw [hval]
      norm_num
    · rw [hval]
      have hmid : (2 : ℚ) * (-1 / 2 ^ 45 + 360) = 360 - 1 / 2 ^ 44 + 360 := by norm_num
      linarith

end Turns

end Double

end TiePoints
