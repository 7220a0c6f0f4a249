import TiePoints.Proofs.Double.Magnitude

/-!
# Nearest numbers of a format

A number of a format is a sign, so many bits and an exponent that is not too
small.  Every operation computes its exact result first and then cuts it down to
a number of the format, and the number that comes out is one of those nearest to
the exact result.  That is all that is used of rounding from here on: a nearest
number passes no number of the format, and it moves with the exact result.  How
large an exponent may be is a matter of packing and plays no part yet.
-/

namespace TiePoints.Double

open Float.Model UnpackedFloat

/-- The number that is stood for; zero for infinities and the undefined. -/
def rational : UnpackedFloat → ℚ
  | .finite s m e _ => s.apply m * 2 ^ e
  | _ => 0

/-- Zero, or a number with the bits and the least exponent of the format. -/
inductive Canonical (f : Format) : UnpackedFloat → Prop
  | zero (s : Sign) : Canonical f (.zero s)
  | finite (s : Sign) {m : Nat} {e : Int} (h : 0 < m) (hm : m < 2 ^ f.mantissaBits)
      (he : f.minExponent ≤ e)
      (hlead : 2 ^ f.mantissaBitsWithoutImplicit ≤ m ∨ e = f.minExponent) :
      Canonical f (.finite s m e h)

/-- No number of the format lies nearer to `q`. -/
structure Nearest (f : Format) (q : ℚ) (u : UnpackedFloat) : Prop where
  canonical : Canonical f u
  abs_sub_le : ∀ v, Canonical f v → |q - rational u| ≤ |q - rational v|

/-! ## What a nearest number satisfies -/

/-- Of two numbers the greater is nearer only on its side of the middle. -/
theorem add_le_two_mul_of_abs_le {q a b : ℚ} (h : |q - a| ≤ |q - b|) (hab : b < a) :
    a + b ≤ 2 * q := by
  have hsq := sq_le_sq.mpr h
  by_contra hlt
  nlinarith

theorem two_mul_le_add_of_abs_le {q a b : ℚ} (h : |q - a| ≤ |q - b|) (hab : a < b) :
    2 * q ≤ a + b := by
  have hsq := sq_le_sq.mpr h
  by_contra hlt
  nlinarith

namespace Nearest

variable {f : Format} {q q' r : ℚ} {u u' v : UnpackedFloat}

theorem lt_of_two_mul_lt (h : Nearest f q u) (hv : Canonical f v) (hvr : rational v < r)
    (hq : 2 * q < rational v + r) : rational u < r := by
  by_contra hr
  have hmid := add_le_two_mul_of_abs_le (h.abs_sub_le v hv) (by linarith)
  linarith

theorem gt_of_lt_two_mul (h : Nearest f q u) (hv : Canonical f v) (hvr : r < rational v)
    (hq : r + rational v < 2 * q) : r < rational u := by
  by_contra hr
  have hmid := two_mul_le_add_of_abs_le (h.abs_sub_le v hv) (by linarith)
  linarith

/-- A number of the format above `q` is not passed. -/
theorem le_of_le (h : Nearest f q u) (hv : Canonical f v) (hq : q ≤ rational v) :
    rational u ≤ rational v := by
  by_contra hlt
  have hmid := add_le_two_mul_of_abs_le (h.abs_sub_le v hv) (by linarith)
  linarith

theorem ge_of_ge (h : Nearest f q u) (hv : Canonical f v) (hq : rational v ≤ q) :
    rational v ≤ rational u := by
  by_contra hlt
  have hmid := two_mul_le_add_of_abs_le (h.abs_sub_le v hv) (by linarith)
  linarith

theorem mono (h : Nearest f q u) (h' : Nearest f q' u') (hq : q < q') :
    rational u ≤ rational u' := by
  by_contra hlt
  have hmid := add_le_two_mul_of_abs_le (h.abs_sub_le u' h'.canonical) (by linarith)
  have hmid' := two_mul_le_add_of_abs_le (h'.abs_sub_le u h.canonical) (by linarith)
  linarith

end Nearest

theorem Canonical.nearest {f : Format} {u : UnpackedFloat} (hu : Canonical f u) :
    Nearest f (rational u) u where
  canonical := hu
  abs_sub_le v _ := by
    rw [sub_self, abs_zero]
    exact abs_nonneg _

/-! ## Cutting a number down -/

/-- The number between the mantissa and the next, as far as the two bits behind the mantissa
tell: on which side of the middle it lies, and whether it is an end or the middle itself. -/
def Approximates (em : ExtendedMantissa) (x : ℚ) : Prop :=
  match em.roundBit, em.stickyBit with
  | false, false => x = em.mantissa
  | false, true => em.mantissa < x ∧ x < em.mantissa + 1 / 2
  | true, false => x = em.mantissa + 1 / 2
  | true, true => em.mantissa + 1 / 2 < x ∧ x < em.mantissa + 1

theorem Approximates.shiftRightOne {em : ExtendedMantissa} {x : ℚ} (h : Approximates em x) :
    Approximates em.shiftRightOne (x / 2) := by
  obtain ⟨m, r, s⟩ := em
  have hsplit : (m : ℚ) = 2 * (m / 2 : ℕ) + (m % 2 : ℕ) := by
    exact_mod_cast (Nat.div_add_mod m 2).symm
  have hodd : ((1 : ℕ) != 0) = true := rfl
  rcases Nat.mod_two_eq_zero_or_one m with hbit | hbit <;> rw [hbit] at hsplit <;>
    push_cast at hsplit <;> cases r <;> cases s <;>
      simp only [Approximates, ExtendedMantissa.shiftRightOne, hbit, hodd, bne_self_eq_false,
        Bool.or_false, Bool.or_true] at h ⊢ <;>
      first | (constructor <;> linarith) | linarith

theorem Approximates.shiftRight {em : ExtendedMantissa} {x : ℚ} (h : Approximates em x)
    (k : Nat) : Approximates (em >>> k) (x / 2 ^ k) := by
  induction k with
  | zero =>
      rw [pow_zero, div_one]
      exact h
  | succ k ih =>
      have hstep : em >>> (k + 1) = (em >>> k).shiftRightOne := rfl
      rw [hstep, pow_succ, ← div_div]
      exact ih.shiftRightOne

theorem approximates_exact (m : Nat) :
    Approximates (ExtendedMantissa.ofMantissaAndAccuracy m .exact) m := rfl

theorem Approximates.abs_sub_roundedMantissa_le {em : ExtendedMantissa} {x : ℚ}
    (h : Approximates em x) : |x - em.roundedMantissa| ≤ 1 / 2 := by
  obtain ⟨m, r, s⟩ := em
  have hparity : m % 2 = 0 ∨ m % 2 = 1 := Nat.mod_two_eq_zero_or_one m
  rw [abs_le]
  cases r <;> cases s <;>
    simp only [Approximates, ExtendedMantissa.roundedMantissa, ExtendedMantissa.accuracy,
      Accuracy.roundToNearestEven] at h ⊢
  · constructor <;> linarith
  · constructor <;> linarith
  · rcases hparity with hp | hp <;> rw [hp] <;> push_cast <;> constructor <;> linarith
  · push_cast
    constructor <;> linarith

/-- A rounded mantissa is a nearest integer. -/
theorem abs_sub_le_of_abs_sub_le_half {x : ℚ} {r n : ℤ} (h : |x - r| ≤ 1 / 2) :
    |x - r| ≤ |x - n| := by
  rcases eq_or_ne r n with rfl | hne
  · exact le_rfl
  · have hgap : (1 : ℚ) ≤ |((r - n : ℤ) : ℚ)| := by
      exact_mod_cast Int.one_le_abs (sub_ne_zero.mpr hne)
    have htri : |((r - n : ℤ) : ℚ)| ≤ |x - r| + |x - n| := by
      have hsplit : ((r - n : ℤ) : ℚ) = (x - n) - (x - r) := by push_cast; ring
      rw [hsplit, add_comm]
      exact abs_sub _ _
    linarith

/-! ## Rounding -/

variable {f : Format}

theorem minExponent_nonpos (f : Format) : f.minExponent ≤ 0 := by
  have hpow : (1 : ℤ) ≤ 2 ^ (f.exponentBits - 1) := by exact_mod_cast Nat.one_le_two_pow
  have hbits := f.hm
  simp only [Format.minExponent, Format.mantissaBits]
  omega

theorem pow_mantissaBits (f : Format) :
    2 ^ f.mantissaBits = 2 * 2 ^ f.mantissaBitsWithoutImplicit := by
  rw [Format.mantissaBits, Nat.add_comm, pow_succ, Nat.mul_comm]

theorem shiftToExponent_exact (m : Nat) {e t : Int} (h : e ≤ t) :
    Approximates (shiftToExponent m e .exact t).1 (m * 2 ^ e / 2 ^ t) ∧
      (shiftToExponent m e .exact t).2 = t := by
  have hcast : ((t - e).toNat : ℤ) = t - e := Int.toNat_of_nonneg (by omega)
  have hshift : (m * 2 ^ e / 2 ^ t : ℚ) = m / 2 ^ (t - e).toNat := by
    rw [← zpow_natCast, hcast, mul_div_assoc, ← zpow_sub₀ two_ne_zero, div_eq_mul_inv, ← zpow_neg,
      neg_sub]
  constructor
  · rw [hshift]
    exact (approximates_exact m).shiftRight _
  · simp only [shiftToExponent]
    omega

/-- Behind a rounding the mantissa has at most one bit too many, and that bit carries no
information. -/
theorem shiftToTargetExponent_carry {r : Nat} {e : Int} (hr : r ≤ 2 ^ f.mantissaBits)
    (he : f.minExponent ≤ e)
    (hlead : 2 ^ f.mantissaBitsWithoutImplicit ≤ r ∨ e = f.minExponent) :
    let t := shiftToTargetExponent f r e .exact
    (t.1.mantissa * 2 ^ t.2 : ℚ) = r * 2 ^ e ∧ t.1.mantissa < 2 ^ f.mantissaBits ∧
      f.minExponent ≤ t.2 ∧
        (2 ^ f.mantissaBitsWithoutImplicit ≤ t.1.mantissa ∨ t.2 = f.minExponent) := by
  intro t
  rcases hr.lt_or_eq with hlt | rfl
  · have htarget : f.targetExponent (totalExponent r e) ≤ e := by
      have hlog : r.log2 < f.mantissaBits := by
        rcases Nat.eq_zero_or_pos r with rfl | hpos
        · simp [Format.mantissaBits]
        · exact (Nat.log2_lt hpos.ne').mpr hlt
      simp only [Format.targetExponent, totalExponent]
      omega
    have hzero : (f.targetExponent (totalExponent r e) - e).toNat = 0 := by omega
    have ht : t = (⟨r, false, false⟩, e) := by
      simp only [t, shiftToTargetExponent, shiftToExponent, hzero, Nat.cast_zero, add_zero]
      rfl
    rw [ht]
    exact ⟨rfl, hlt, he, hlead⟩
  · have htarget : f.targetExponent (totalExponent (2 ^ f.mantissaBits) e) = e + 1 := by
      simp only [Format.targetExponent, totalExponent, Nat.log2_two_pow]
      omega
    have hone : (e + 1 - e).toNat = 1 := by omega
    have hhalf : 2 ^ f.mantissaBits / 2 = 2 ^ f.mantissaBitsWithoutImplicit := by
      rw [pow_mantissaBits, Nat.mul_div_cancel_left _ two_pos]
    have ht : t = (⟨2 ^ f.mantissaBits / 2, 2 ^ f.mantissaBits % 2 != 0, false⟩, e + 1) := by
      simp only [t, shiftToTargetExponent, htarget, shiftToExponent, hone]
      rfl
    have hpos : 0 < 2 ^ f.mantissaBitsWithoutImplicit := Nat.two_pow_pos _
    rw [ht, hhalf]
    refine ⟨?_, ?_, ?_, .inl le_rfl⟩
    · rw [pow_mantissaBits, zpow_add_one₀ two_ne_zero]
      push_cast
      ring
    · simp only [pow_mantissaBits]
      omega
    · simp only
      omega

theorem exists_sign (s : Sign) :
    ∃ ε : ℚ, |ε| = 1 ∧ ∀ n : ℤ, ((s.apply n : ℤ) : ℚ) = ε * n := by
  cases s with
  | negative => exact ⟨-1, by norm_num, fun n => by simp [Sign.apply]⟩
  | positive => exact ⟨1, by norm_num, fun n => by simp [Sign.apply]⟩

theorem abs_rational (s : Sign) {m : Nat} {e : Int} (h : 0 < m) :
    |rational (.finite s m e h)| = m * 2 ^ e := by
  cases s <;> simp [rational, Sign.apply, abs_mul, abs_zpow]

/-- With a smaller unit a number does not get beyond the least number with all of its bits. -/
theorem abs_rational_le_of_lt (s : Sign) {m : Nat} {e E : Int} (h : 0 < m)
    (hm : m < 2 ^ f.mantissaBits) (hlt : e < E) :
    |rational (.finite s m e h)| ≤ 2 ^ f.mantissaBitsWithoutImplicit * 2 ^ E := by
  rw [pow_mantissaBits] at hm
  have hmq : (m : ℚ) ≤ 2 * 2 ^ f.mantissaBitsWithoutImplicit := by exact_mod_cast hm.le
  have hstep : (2 : ℚ) * 2 ^ e ≤ 2 ^ E := by
    rw [← zpow_one_add₀ two_ne_zero]
    exact zpow_le_zpow_right₀ one_le_two (by omega)
  rw [abs_rational]
  calc (m : ℚ) * 2 ^ e ≤ 2 * 2 ^ f.mantissaBitsWithoutImplicit * 2 ^ e :=
        mul_le_mul_of_nonneg_right hmq (zpow_pos two_pos e).le
    _ = 2 ^ f.mantissaBitsWithoutImplicit * (2 * 2 ^ e) := by ring
    _ ≤ 2 ^ f.mantissaBitsWithoutImplicit * 2 ^ E :=
        mul_le_mul_of_nonneg_left hstep (by positivity)

/-- With a unit that is no smaller a number is a whole multiple. -/
theorem exists_rational_eq_mul (s : Sign) {m : Nat} {e E : Int} (h : 0 < m) (hle : E ≤ e) :
    ∃ k : ℤ, rational (.finite s m e h) = k * 2 ^ E := by
  have hcast : ((e - E).toNat : ℤ) = e - E := Int.toNat_of_nonneg (by omega)
  refine ⟨s.apply m * 2 ^ (e - E).toNat, ?_⟩
  push_cast
  rw [rational, mul_assoc, ← zpow_natCast, hcast, ← zpow_add₀ two_ne_zero, sub_add_cancel]

/-- A nearest integer lies no farther than an integer on the way to zero. -/
theorem abs_sub_le_abs_sub {x : ℚ} {n k : ℤ} (hx : |x - n| ≤ 1 / 2) (hk : k ≤ |x|) :
    |x - n| ≤ |x| - k := by
  rcases abs_cases x with ⟨hxa, -⟩ | ⟨hxa, -⟩ <;> rw [hxa] at hk ⊢
  · have hnear := abs_sub_le_of_abs_sub_le_half (n := k) hx
    rwa [abs_of_nonneg (sub_nonneg.mpr hk)] at hnear
  · have hnear := abs_sub_le_of_abs_sub_le_half (n := -k) hx
    push_cast at hnear
    have hneg : x - -(k : ℚ) ≤ 0 := by linarith
    rw [abs_of_nonpos hneg] at hnear
    linarith

/-- A multiple of a unit is a nearest number if it is a nearest multiple, as long as smaller
units are for smaller numbers. -/
theorem nearest_of_multiple {x : ℚ} {n E : ℤ} {u : UnpackedFloat} (hx : |x - n| ≤ 1 / 2)
    (hlead : 2 ^ f.mantissaBitsWithoutImplicit ≤ |x| ∨ E = f.minExponent) (hu : Canonical f u)
    (hval : rational u = n * 2 ^ E) : Nearest f (x * 2 ^ E) u := by
  have hunit : (0 : ℚ) < 2 ^ E := zpow_pos two_pos E
  have hmultiple : ∀ k : ℤ, |x * 2 ^ E - n * 2 ^ E| ≤ |x * 2 ^ E - k * 2 ^ E| := by
    intro k
    rw [← sub_mul, ← sub_mul, abs_mul, abs_mul]
    exact mul_le_mul_of_nonneg_right (abs_sub_le_of_abs_sub_le_half hx) (abs_nonneg _)
  refine ⟨hu, fun v hv => ?_⟩
  rw [hval]
  cases hv with
  | zero s =>
      have hzero : rational (.zero s) = (0 : ℤ) * 2 ^ E := by simp [rational]
      rw [hzero]
      exact hmultiple 0
  | @finite s m e hpos hm he hlead' =>
      rcases le_or_gt E e with hle | hlt
      · obtain ⟨k, hk⟩ := exists_rational_eq_mul s hpos hle
        rw [hk]
        exact hmultiple k
      · have hlarge : ((2 ^ f.mantissaBitsWithoutImplicit : ℤ) : ℚ) ≤ |x| := by
          push_cast
          exact hlead.resolve_right (by omega)
        have hsmall := abs_rational_le_of_lt s hpos hm hlt
        have htri := abs_sub_abs_le_abs_sub (x * 2 ^ E) (rational (.finite s m e hpos))
        have hnear := mul_le_mul_of_nonneg_right (abs_sub_le_abs_sub hx hlarge) hunit.le
        push_cast at hnear
        rw [← sub_mul, abs_mul, abs_of_pos hunit]
        rw [abs_mul, abs_of_pos hunit] at htri
        linarith

/-- The exact mantissa in the unit that the format prescribes for it. -/
theorem mantissa_bounds {m : Nat} (hm : 0 < m) (e : Int) :
    let E := f.targetExponent (totalExponent m e)
    (m * 2 ^ e / 2 ^ E : ℚ) < 2 ^ f.mantissaBits ∧
      (2 ^ f.mantissaBitsWithoutImplicit ≤ (m * 2 ^ e / 2 ^ E : ℚ) ∨ E = f.minExponent) := by
  intro E
  have hE : E = max (m.log2 + 1 + e - f.mantissaBits) f.minExponent := rfl
  have hbits : (f.mantissaBits : ℤ) = 1 + f.mantissaBitsWithoutImplicit := by
    simp [Format.mantissaBits]
  have hunit : (0 : ℚ) < 2 ^ E := zpow_pos two_pos E
  have he : (0 : ℚ) < 2 ^ e := zpow_pos two_pos e
  constructor
  · have hhigh : (m : ℚ) < 2 ^ (m.log2 + 1 : ℤ) := by exact_mod_cast Nat.lt_log2_self
    rw [div_lt_iff₀ hunit, ← zpow_natCast, ← zpow_add₀ two_ne_zero]
    calc (m * 2 ^ e : ℚ) < 2 ^ (m.log2 + 1 : ℤ) * 2 ^ e := mul_lt_mul_of_pos_right hhigh he
      _ = 2 ^ (m.log2 + 1 + e : ℤ) := (zpow_add₀ two_ne_zero _ _).symm
      _ ≤ 2 ^ (f.mantissaBits + E : ℤ) := zpow_le_zpow_right₀ one_le_two (by omega)
  · refine (le_or_gt E f.minExponent).symm.imp (fun hlt => ?_) (fun hle => by omega)
    have hlow : (2 : ℚ) ^ (m.log2 : ℤ) ≤ m := by
      rw [zpow_natCast]
      exact_mod_cast Nat.log2_self_le hm.ne'
    rw [le_div_iff₀ hunit, ← zpow_natCast, ← zpow_add₀ two_ne_zero]
    calc (2 : ℚ) ^ (f.mantissaBitsWithoutImplicit + E : ℤ) = 2 ^ (m.log2 + e : ℤ) := by
          congr 1
          omega
      _ = 2 ^ (m.log2 : ℤ) * 2 ^ e := zpow_add₀ two_ne_zero _ _
      _ ≤ m * 2 ^ e := mul_le_mul_of_nonneg_right hlow he.le

theorem nearest_roundWithAccuracy (s : Sign) {m : Nat} {e : Int} (hm : 0 < m)
    (h : e ≤ f.targetExponent (totalExponent m e)) :
    Nearest f (s.apply m * 2 ^ e) (roundWithAccuracy f s m e .exact) := by
  obtain ⟨hlt, hlead⟩ := mantissa_bounds (f := f) hm e
  have hmin : f.minExponent ≤ f.targetExponent (totalExponent m e) := Int.le_max_right _ _
  obtain ⟨happrox, -⟩ := shiftToExponent_exact m h
  have hfirst : shiftToTargetExponent f m e .exact =
      ((shiftToExponent m e .exact (f.targetExponent (totalExponent m e))).1,
        f.targetExponent (totalExponent m e)) :=
    Prod.ext rfl (shiftToExponent_exact m h).2
  generalize f.targetExponent (totalExponent m e) = E at *
  generalize (shiftToExponent m e .exact E).1 = em at *
  have hnear := happrox.abs_sub_roundedMantissa_le
  have hclose := abs_le.mp hnear
  have hunit : (0 : ℚ) < 2 ^ E := zpow_pos two_pos E
  have hx : (0 : ℚ) ≤ m * 2 ^ e / 2 ^ E := by positivity
  -- the rounded mantissa keeps the bounds, as these are whole numbers
  have hr : em.roundedMantissa ≤ 2 ^ f.mantissaBits := by
    have hq : (em.roundedMantissa : ℚ) < (2 ^ f.mantissaBits + 1 : ℕ) := by
      push_cast
      linarith
    have hn : em.roundedMantissa < 2 ^ f.mantissaBits + 1 := by exact_mod_cast hq
    omega
  have hrlead : 2 ^ f.mantissaBitsWithoutImplicit ≤ em.roundedMantissa ∨ E = f.minExponent := by
    refine hlead.imp_left fun hlow => ?_
    have hq : ((2 ^ f.mantissaBitsWithoutImplicit : ℕ) : ℚ) < (em.roundedMantissa + 1 : ℕ) := by
      push_cast
      linarith
    have hn : 2 ^ f.mantissaBitsWithoutImplicit < em.roundedMantissa + 1 := by exact_mod_cast hq
    omega
  obtain ⟨hval, hbits, hexp, hlead'⟩ := shiftToTargetExponent_carry hr hmin hrlead
  have hround : roundWithAccuracy f s m e .exact =
      if h : (shiftToTargetExponent f em.roundedMantissa E .exact).1.mantissa = 0 then .zero s
      else .finite s _ (shiftToTargetExponent f em.roundedMantissa E .exact).2
        (Nat.pos_of_ne_zero h) := by
    simp only [roundWithAccuracy, hfirst]
  generalize shiftToTargetExponent f em.roundedMantissa E .exact = second at *
  obtain ⟨ε, hε, happly⟩ := exists_sign s
  have hscaled : (s.apply m * 2 ^ e : ℚ) = ε * (m * 2 ^ e / 2 ^ E) * 2 ^ E := by
    rw [mul_assoc ε, div_mul_cancel₀ _ hunit.ne', happly, Int.cast_natCast, mul_assoc]
  rw [hround, hscaled]
  apply nearest_of_multiple (n := s.apply em.roundedMantissa)
  · rwa [happly, ← mul_sub, abs_mul, hε, one_mul]
  · rwa [abs_mul, hε, one_mul, abs_of_nonneg hx]
  · split_ifs with hzero
    · exact .zero s
    · exact .finite s _ hbits hexp hlead'
  · rw [happly, Int.cast_natCast, mul_assoc, ← hval]
    split_ifs with hzero
    · simp [rational, hzero]
    · rw [rational, happly, Int.cast_natCast, mul_assoc]

theorem decreaseExponent_value (m : Nat) (e t : Int) :
    ((decreaseExponent m e t).1 * 2 ^ (decreaseExponent m e t).2 : ℚ) = m * 2 ^ e := by
  have hexp : e = (e - t).toNat + (e - (e - t).toNat) := by omega
  simp only [decreaseExponent, Nat.shiftLeft_eq]
  push_cast
  conv_rhs => rw [hexp, zpow_add₀ two_ne_zero, zpow_natCast]
  rw [mul_assoc]

theorem decreaseExponent_of_le (m : Nat) {e t : Int} (h : t ≤ e) :
    ((decreaseExponent m e t).1 * 2 ^ t : ℚ) = m * 2 ^ e := by
  have hexp : (decreaseExponent m e t).2 = t := by
    simp only [decreaseExponent]
    omega
  have hval := decreaseExponent_value m e t
  rwa [hexp] at hval

theorem nearest_round (s : Sign) {m : Nat} (hm : 0 < m) (e : Int) :
    Nearest f (s.apply m * 2 ^ e) (UnpackedFloat.round f s m e) := by
  obtain ⟨ε, -, happly⟩ := exists_sign s
  have hval := decreaseExponent_value m e (f.targetExponent (totalExponent m e))
  have hpos : 0 < (decreaseExponent m e (f.targetExponent (totalExponent m e))).1 := by
    simp only [decreaseExponent, Nat.shiftLeft_eq]
    exact Nat.mul_pos hm (Nat.two_pow_pos _)
  have htotal : totalExponent (decreaseExponent m e (f.targetExponent (totalExponent m e))).1
      (decreaseExponent m e (f.targetExponent (totalExponent m e))).2 = totalExponent m e := by
    simp only [decreaseExponent, totalExponent, log2_shiftLeft hm.ne']
    omega
  have hround := nearest_roundWithAccuracy (f := f) s hpos (by
    rw [htotal]
    simp only [decreaseExponent]
    omega)
  rwa [happly, Int.cast_natCast, mul_assoc, hval, ← mul_assoc, ← Int.cast_natCast,
    ← happly] at hround

theorem nearest_normalize (n e : Int) (s : Sign) :
    Nearest f (n * 2 ^ e) (UnpackedFloat.normalize f n e s) := by
  rcases lt_trichotomy n 0 with hneg | rfl | hpos
  · have hcompare : compare n 0 = .lt := Int.compare_eq_lt.mpr hneg
    have hcast : (((-n).toNat : ℕ) : ℤ) = -n := Int.toNat_of_nonneg (by omega)
    have hround := nearest_round (f := f) .negative (m := (-n).toNat) (by omega) e
    simp only [UnpackedFloat.normalize, hcompare]
    rwa [Sign.apply, hcast, neg_neg] at hround
  · have hzero : rational (.zero s) = ((0 : ℤ) : ℚ) * 2 ^ e := by simp [rational]
    rw [← hzero]
    exact (Canonical.zero s).nearest
  · have hcompare : compare n 0 = .gt := Int.compare_eq_gt.mpr hpos
    have hcast : ((n.toNat : ℕ) : ℤ) = n := Int.toNat_of_nonneg hpos.le
    have hround := nearest_round (f := f) .positive (m := n.toNat) (by omega) e
    simp only [UnpackedFloat.normalize, hcompare]
    rwa [Sign.apply, hcast] at hround

/-! ## Operations -/

variable {u v : UnpackedFloat}

theorem apply_neg (s : Sign) (n : ℤ) : (-s).apply n = -s.apply n := by
  cases s with
  | negative => exact (neg_neg n).symm
  | positive => rfl

theorem rational_neg (u : UnpackedFloat) : rational u.neg = -rational u := by
  cases u with
  | finite s m e h => simp only [UnpackedFloat.neg, rational, apply_neg, Int.cast_neg, neg_mul]
  | _ => exact neg_zero.symm

theorem Canonical.neg (hu : Canonical f u) : Canonical f u.neg := by
  cases hu with
  | zero s => exact .zero _
  | finite s h hm he hlead => exact .finite _ h hm he hlead

theorem nearest_zero (s : Sign) : Nearest f 0 (.zero s) := (Canonical.zero s).nearest

theorem nearest_add (hu : Canonical f u) (hv : Canonical f v) :
    Nearest f (rational u + rational v) (UnpackedFloat.add f u v) := by
  cases hu with
  | zero s =>
      rw [show rational (.zero s) = 0 from rfl, zero_add]
      cases hv with
      | zero t =>
          simp only [UnpackedFloat.add]
          split_ifs <;> exact nearest_zero _
      | finite t h hm he hlead => exact (Canonical.finite t h hm he hlead).nearest
  | @finite s m e h hm he hlead =>
      cases hv with
      | zero t =>
          rw [show rational (.zero t) = 0 from rfl, add_zero]
          exact (Canonical.finite s h hm he hlead).nearest
      | @finite t n d h' _ _ _ =>
          obtain ⟨ε, -, hs⟩ := exists_sign s
          obtain ⟨δ, -, ht⟩ := exists_sign t
          have hsum := nearest_normalize (f := f)
            (s.apply (decreaseExponent m e (min e d)).1 +
              t.apply (decreaseExponent n d (min e d)).1)
            (min e d) .positive
          rw [Int.cast_add, hs, ht, add_mul, Int.cast_natCast, Int.cast_natCast, mul_assoc,
            mul_assoc, decreaseExponent_of_le m (min_le_left e d),
            decreaseExponent_of_le n (min_le_right e d)] at hsum
          rw [rational, rational, hs, ht, Int.cast_natCast, Int.cast_natCast, mul_assoc, mul_assoc]
          exact hsum

theorem sub_eq_add (u v : UnpackedFloat) :
    UnpackedFloat.sub f u v = UnpackedFloat.add f u v.neg := by
  cases u with
  | finite s m e h =>
      cases v with
      | finite t n d h' => simp only [UnpackedFloat.sub, UnpackedFloat.neg, UnpackedFloat.add,
          apply_neg, Int.sub_eq_add_neg]
      | _ => rfl
  | _ => cases v <;> rfl

theorem nearest_sub (hu : Canonical f u) (hv : Canonical f v) :
    Nearest f (rational u - rational v) (UnpackedFloat.sub f u v) := by
  rw [sub_eq_add, sub_eq_add_neg, ← rational_neg]
  exact nearest_add hu hv.neg

/-- The unit of a product is no larger than what the format prescribes. -/
theorem add_le_targetExponent {m n : Nat} {e d : Int} (hm : 0 < m) (hn : 0 < n)
    (hmlead : 2 ^ f.mantissaBitsWithoutImplicit ≤ m ∨ e = f.minExponent)
    (hnlead : 2 ^ f.mantissaBitsWithoutImplicit ≤ n ∨ d = f.minExponent) :
    e + d ≤ f.targetExponent (totalExponent (m * n) (e + d)) := by
  have hbits : (f.mantissaBits : ℤ) = 1 + f.mantissaBitsWithoutImplicit := by
    simp [Format.mantissaBits]
  have hmin := minExponent_nonpos f
  have hlarge : 2 ^ f.mantissaBitsWithoutImplicit ≤ m * n →
      e + d ≤ f.targetExponent (totalExponent (m * n) (e + d)) := by
    intro hlow
    have hlog := log2_mono hlow
    rw [Nat.log2_two_pow] at hlog
    simp only [Format.targetExponent, totalExponent]
    omega
  rcases hmlead with hlow | he
  · exact hlarge (hlow.trans (Nat.le_mul_of_pos_right m hn))
  · rcases hnlead with hlow | hd
    · exact hlarge (hlow.trans (Nat.le_mul_of_pos_left n hm))
    · simp only [Format.targetExponent]
      omega

theorem apply_mul (s t : Sign) (m n : ℤ) : (s * t).apply (m * n) = s.apply m * t.apply n := by
  cases s <;> cases t
  · exact (neg_mul_neg m n).symm
  · exact (neg_mul m n).symm
  · exact (mul_neg m n).symm
  · rfl

theorem nearest_mul (hu : Canonical f u) (hv : Canonical f v) :
    Nearest f (rational u * rational v) (UnpackedFloat.mul f u v) := by
  cases hu with
  | zero s =>
      rw [show rational (.zero s) = 0 from rfl, zero_mul]
      cases hv <;> exact nearest_zero _
  | @finite s m e h hm he hlead =>
      cases hv with
      | zero t =>
          rw [show rational (.zero t) = 0 from rfl, mul_zero]
          exact nearest_zero _
      | @finite t n d h' hn hd hlead' =>
          have hround := nearest_roundWithAccuracy (f := f) (s * t) (Nat.mul_pos h h')
            (add_le_targetExponent h h' hlead hlead')
          rw [Nat.cast_mul, apply_mul, Int.cast_mul, zpow_add₀ two_ne_zero,
            mul_mul_mul_comm] at hround
          exact hround

/-! ## Gaps -/

/-- From the least number with all bits on, numbers are whole multiples of the unit. -/
theorem exists_rational_eq_mul_of_lt (hu : Canonical f u) {E : ℤ}
    (h : 2 ^ f.mantissaBitsWithoutImplicit * 2 ^ E < |rational u|) :
    ∃ k : ℤ, rational u = k * 2 ^ E := by
  cases hu with
  | zero s => exact ⟨0, by simp [rational]⟩
  | @finite s m e hpos hm he hlead =>
      apply exists_rational_eq_mul s hpos
      by_contra hlt
      exact absurd (abs_rational_le_of_lt s hpos hm (not_le.mp hlt)) (not_le.mpr h)

/-! ## Powers of two -/

theorem exists_canonical_two_pow {k : ℤ}
    (hk : f.minExponent + f.mantissaBitsWithoutImplicit ≤ k) :
    ∃ v, Canonical f v ∧ rational v = 2 ^ k := by
  have hpos : 0 < 2 ^ f.mantissaBitsWithoutImplicit := Nat.two_pow_pos _
  refine ⟨.finite .positive (2 ^ f.mantissaBitsWithoutImplicit)
    (k - f.mantissaBitsWithoutImplicit) hpos, .finite _ _ ?_ (by omega) (.inl le_rfl), ?_⟩
  · rw [pow_mantissaBits]
    omega
  · have hexp : k = f.mantissaBitsWithoutImplicit + (k - f.mantissaBitsWithoutImplicit) := by omega
    conv_rhs => rw [hexp, zpow_add₀ two_ne_zero, zpow_natCast]
    simp [rational, Sign.apply]

/-- A bound that is a power of two holds for the nearest number, too. -/
theorem Nearest.abs_le_two_pow {q : ℚ} {k : ℕ} (h : Nearest f q u) (hbits : 2 ≤ f.exponentBits)
    (hq : |q| ≤ 2 ^ k) : |rational u| ≤ 2 ^ k := by
  have hmin : f.minExponent + f.mantissaBitsWithoutImplicit ≤ (k : ℤ) := by
    have hpow : (2 : ℤ) ^ 1 ≤ 2 ^ (f.exponentBits - 1) :=
      pow_le_pow_right₀ one_le_two (by omega)
    simp only [Format.minExponent, Format.mantissaBits]
    omega
  obtain ⟨v, hv, hval⟩ := exists_canonical_two_pow hmin
  rw [zpow_natCast] at hval
  rw [abs_le] at hq ⊢
  constructor
  · have hlow := h.ge_of_ge hv.neg (by rw [rational_neg, hval]; exact hq.1)
    rwa [rational_neg, hval] at hlow
  · rw [← hval] at hq ⊢
    exact h.le_of_le hv hq.2

end TiePoints.Double
