import TiePoints.Proofs.Double.Packing

/-!
# Arithmetic of doubles

Sums, differences and products of finite doubles are nearest to the exact
results as long as these stay away from the end of the range, and comparisons of
finite doubles are comparisons of numbers.  Bounds by powers of two pass through
every operation, so that a formula whose operands are bounded cannot overflow
and never becomes undefined.
-/

namespace TiePoints.Double

open Float.Model UnpackedFloat

/-- The number that a finite double stands for. -/
def value (x : Float) : ℚ := rational x.toModel.unpack

/-- No finite double lies nearer to `q`. -/
def IsNearest (q : ℚ) (x : Float) : Prop := Nearest .binary64 q x.toModel.unpack

variable {x y : Float}

theorem canonical_of_isFinite (h : Scalar.isFinite x) : Canonical .binary64 x.toModel.unpack :=
  (canonical_unpack h).1

theorem abs_value_lt (h : Scalar.isFinite x) : |value x| < 2 ^ 1024 := (canonical_unpack h).2

theorem isFinite_of_canonical (h : Canonical .binary64 x.toModel.unpack) : Scalar.isFinite x := by
  change x.toModel.unpack.isFinite = true
  generalize x.toModel.unpack = u at h
  cases h <;> rfl

theorem lt_iff_value_lt (hx : Scalar.isFinite x) (hy : Scalar.isFinite y) :
    x < y ↔ value x < value y :=
  decide_eq_true_iff.trans (lt_iff (canonical_of_isFinite hx) (canonical_of_isFinite hy))

theorem le_iff_value_le (hx : Scalar.isFinite x) (hy : Scalar.isFinite y) :
    x ≤ y ↔ value x ≤ value y :=
  decide_eq_true_iff.trans (le_iff (canonical_of_isFinite hx) (canonical_of_isFinite hy))

theorem not_isNaN_of_isFinite (h : Scalar.isFinite x) : ¬ Scalar.isNaN x := by
  have hx : x.toModel.unpack.isFinite = true := h
  change ¬ x.toModel.unpack.isNaN = true
  generalize x.toModel.unpack = u at hx
  cases u with
  | notANumber => cases hx
  | _ => exact Bool.false_ne_true

/-- A double between two finite ones is finite. -/
theorem isFinite_of_le_of_le {lo hi : Float} (hlo : Scalar.isFinite lo) (hhi : Scalar.isFinite hi)
    (h : lo ≤ x) (h' : x ≤ hi) : Scalar.isFinite x := by
  have hl : UnpackedFloat.le lo.toModel.unpack x.toModel.unpack := of_decide_eq_true h
  have hr : UnpackedFloat.le x.toModel.unpack hi.toModel.unpack := of_decide_eq_true h'
  have clo := canonical_of_isFinite hlo
  have chi := canonical_of_isFinite hhi
  change x.toModel.unpack.isFinite = true
  generalize x.toModel.unpack = u at hl hr
  cases u with
  | notANumber =>
      generalize lo.toModel.unpack = v at hl
      cases v <;> cases hl
  | infinity s =>
      cases s with
      | negative =>
          generalize lo.toModel.unpack = v at hl clo
          cases clo <;> cases hl
      | positive =>
          generalize hi.toModel.unpack = v at hr chi
          cases chi <;> cases hr
  | _ => rfl

/-- A double that is defined and not outside two finite ones is finite. -/
theorem isFinite_of_not_lt {lo hi : Float} (hx : ¬ Scalar.isNaN x) (hlo : Scalar.isFinite lo)
    (hhi : Scalar.isFinite hi) (h : ¬ x < lo) (h' : ¬ hi < x) : Scalar.isFinite x := by
  have hl : ¬ UnpackedFloat.lt x.toModel.unpack lo.toModel.unpack := fun h0 => h (decide_eq_true h0)
  have hr : ¬ UnpackedFloat.lt hi.toModel.unpack x.toModel.unpack :=
    fun h0 => h' (decide_eq_true h0)
  have hn : ¬ x.toModel.unpack.isNaN := hx
  have clo := canonical_of_isFinite hlo
  have chi := canonical_of_isFinite hhi
  change x.toModel.unpack.isFinite = true
  generalize x.toModel.unpack = u at hl hr hn
  cases u with
  | notANumber => exact absurd rfl hn
  | infinity s =>
      cases s with
      | negative =>
          generalize lo.toModel.unpack = v at hl clo
          cases clo <;> exact absurd rfl hl
      | positive =>
          generalize hi.toModel.unpack = v at hr chi
          cases chi <;> exact absurd rfl hr
  | _ => rfl

/-- Apart from zero a number has one double. -/
theorem eq_of_value_eq (hx : Scalar.isFinite x) (hy : Scalar.isFinite y) (h : value x = value y)
    (h0 : value x ≠ 0) : x = y := by
  have hbeq : x == y := by
    change (x.toModel.unpack.compare y.toModel.unpack == some .eq) = true
    rw [compare_eq (canonical_of_isFinite hx) (canonical_of_isFinite hy),
      compare_eq_iff_eq.mpr (show rational x.toModel.unpack = rational y.toModel.unpack from h)]
    rfl
  obtain ⟨-, -, heq | ⟨rfl, -⟩ | ⟨rfl, -⟩⟩ := Float.beq_iff_ne_nan_and_eq.mp hbeq
  · exact heq
  · exact absurd rfl h0
  · exact absurd rfl h0

/-! ## Operations -/

theorem unpack_pack_of_nearest {f : Format} (hbits : 2 ≤ f.exponentBits) {q : ℚ} {u : UnpackedFloat}
    (h : Nearest f q u) (hq : |q| ≤ 2 ^ f.exponentBias) :
    UnpackedFloat.unpack f (UnpackedFloat.pack f u) = u :=
  unpack_pack hbits h.canonical
    ((h.abs_le_two_pow hbits hq).trans_lt (pow_lt_pow_right₀ one_lt_two (Nat.lt_succ_self _)))

theorem isNearest_pack {q : ℚ} {u : UnpackedFloat} (h : Nearest .binary64 q u)
    (hq : |q| ≤ 2 ^ 1023) : IsNearest q (.ofModel (.pack u)) := by
  have hunpack : (Float.Model.pack u).unpack = u := unpack_pack_of_nearest (by decide) h hq
  rw [IsNearest, hunpack]
  exact h

theorem isNearest_add (hx : Scalar.isFinite x) (hy : Scalar.isFinite y)
    (h : |value x + value y| ≤ 2 ^ 1023) : IsNearest (value x + value y) (x + y) :=
  isNearest_pack (nearest_add (canonical_of_isFinite hx) (canonical_of_isFinite hy)) h

theorem isNearest_sub (hx : Scalar.isFinite x) (hy : Scalar.isFinite y)
    (h : |value x - value y| ≤ 2 ^ 1023) : IsNearest (value x - value y) (x - y) :=
  isNearest_pack (nearest_sub (canonical_of_isFinite hx) (canonical_of_isFinite hy)) h

theorem isNearest_mul (hx : Scalar.isFinite x) (hy : Scalar.isFinite y)
    (h : |value x * value y| ≤ 2 ^ 1023) : IsNearest (value x * value y) (x * y) :=
  isNearest_pack (nearest_mul (canonical_of_isFinite hx) (canonical_of_isFinite hy)) h

theorem isNearest_ofNat {n k : ℕ} (h : n ≤ 2 ^ k) (hk : k ≤ 1023) :
    IsNearest n (Scalar.ofNat n : Float) := by
  have hnear := nearest_normalize (f := .binary64) n 0 .positive
  rw [Int.cast_natCast, zpow_zero, mul_one] at hnear
  have hn : (n : ℚ) ≤ 2 ^ k := by exact_mod_cast h
  refine isNearest_pack hnear ?_
  rw [Nat.abs_cast]
  exact hn.trans (pow_le_pow_right₀ one_le_two hk)

theorem nearest_fitTo {f g : Format} {u : UnpackedFloat} (hu : Canonical f u) :
    Nearest g (rational u) (fitTo g u) := by
  cases hu with
  | zero s => exact nearest_zero s
  | finite s h hm he hlead => exact nearest_round s h _

/-! ## Bounds -/

/-- A finite double of no more than `2 ^ k` in magnitude. -/
structure Within (k : ℕ) (x : Float) : Prop where
  isFinite : Scalar.isFinite x
  abs_value_le : |value x| ≤ 2 ^ k

theorem IsNearest.isFinite {q : ℚ} (h : IsNearest q x) : Scalar.isFinite x :=
  isFinite_of_canonical h.canonical

theorem IsNearest.within {q : ℚ} {k : ℕ} (h : IsNearest q x) (hq : |q| ≤ 2 ^ k) : Within k x :=
  ⟨h.isFinite, Nearest.abs_le_two_pow h (by decide) hq⟩

namespace Within

variable {j k : ℕ}

theorem mono (h : Within j x) (hjk : j ≤ k) : Within k x :=
  ⟨h.isFinite, h.abs_value_le.trans (pow_le_pow_right₀ one_le_two hjk)⟩

theorem add (hx : Within k x) (hy : Within k y) (hk : k < 1023) : Within (k + 1) (x + y) := by
  have hsum : |value x + value y| ≤ 2 ^ (k + 1) := by
    have htri := abs_add_le (value x) (value y)
    have hxk := hx.abs_value_le
    have hyk := hy.abs_value_le
    rw [pow_succ]
    linarith
  have hrange := hsum.trans (pow_le_pow_right₀ one_le_two (show k + 1 ≤ 1023 by omega))
  exact (isNearest_add hx.isFinite hy.isFinite hrange).within hsum

theorem sub (hx : Within k x) (hy : Within k y) (hk : k < 1023) : Within (k + 1) (x - y) := by
  have hdiff : |value x - value y| ≤ 2 ^ (k + 1) := by
    have htri := abs_sub (value x) (value y)
    have hxk := hx.abs_value_le
    have hyk := hy.abs_value_le
    rw [pow_succ]
    linarith
  have hrange := hdiff.trans (pow_le_pow_right₀ one_le_two (show k + 1 ≤ 1023 by omega))
  exact (isNearest_sub hx.isFinite hy.isFinite hrange).within hdiff

theorem mul (hx : Within j x) (hy : Within k y) (hjk : j + k ≤ 1023) : Within (j + k) (x * y) := by
  have hprod : |value x * value y| ≤ 2 ^ (j + k) := by
    rw [abs_mul, pow_add]
    exact mul_le_mul hx.abs_value_le hy.abs_value_le (abs_nonneg _) (by positivity)
  have hrange := hprod.trans (pow_le_pow_right₀ one_le_two hjk)
  exact (isNearest_mul hx.isFinite hy.isFinite hrange).within hprod

theorem ofNat {n : ℕ} (hn : n ≤ 2 ^ k) (hk : k ≤ 1023) : Within k (Scalar.ofNat n : Float) := by
  refine (isNearest_ofNat hn hk).within ?_
  rw [Nat.abs_cast]
  exact_mod_cast hn

theorem of_le_of_le {lo hi : Float} (hlo : Within k lo) (hhi : Within k hi) (h : lo ≤ x)
    (h' : x ≤ hi) : Within k x := by
  have hx := isFinite_of_le_of_le hlo.isFinite hhi.isFinite h h'
  rw [le_iff_value_le hlo.isFinite hx] at h
  rw [le_iff_value_le hx hhi.isFinite] at h'
  have hlow := (abs_le.mp hlo.abs_value_le).1
  have hhigh := (abs_le.mp hhi.abs_value_le).2
  exact ⟨hx, abs_le.mpr ⟨hlow.trans h, h'.trans hhigh⟩⟩

theorem clamp {lo hi : Float} (hx : ¬ Scalar.isNaN x) (hlo : Within k lo) (hhi : Within k hi) :
    Within k (Scalar.clamp lo hi x) := by
  unfold Scalar.clamp
  split_ifs with h h'
  · exact hlo
  · exact hhi
  · have hfin := isFinite_of_not_lt hx hlo.isFinite hhi.isFinite h h'
    rw [lt_iff_value_lt hfin hlo.isFinite, not_lt] at h
    rw [lt_iff_value_lt hhi.isFinite hfin, not_lt] at h'
    have hlow := (abs_le.mp hlo.abs_value_le).1
    have hhigh := (abs_le.mp hhi.abs_value_le).2
    exact ⟨hfin, abs_le.mpr ⟨hlow.trans h, h'.trans hhigh⟩⟩

theorem toSingle (h : Within k x) (hk : k ≤ 127) : Within k (Scalar.toSingle x) := by
  have hnarrow := nearest_fitTo (g := .binary32) (canonical_of_isFinite h.isFinite)
  have hpack := unpack_pack_of_nearest (by decide) hnarrow
    (h.abs_value_le.trans (pow_le_pow_right₀ one_le_two hk))
  have hsingle := hnarrow.abs_le_two_pow (by decide) h.abs_value_le
  have hwiden := nearest_fitTo (g := .binary64) hnarrow.canonical
  have hpack' := unpack_pack_of_nearest (by decide) hwiden
    (hsingle.trans (pow_le_pow_right₀ one_le_two (hk.trans (by decide))))
  have hunpack : (Scalar.toSingle x).toModel.unpack =
      fitTo .binary64 (fitTo .binary32 x.toModel.unpack) := by
    change UnpackedFloat.unpack .binary64 (UnpackedFloat.pack .binary64 (fitTo .binary64
      (UnpackedFloat.unpack .binary32 (UnpackedFloat.pack .binary32
        (fitTo .binary32 x.toModel.unpack))))) = _
    rw [hpack, hpack']
  constructor
  · apply isFinite_of_canonical
    rw [hunpack]
    exact hwiden.canonical
  · rw [value, hunpack]
    exact hwiden.abs_le_two_pow (by decide) hsingle

end Within

end TiePoints.Double
