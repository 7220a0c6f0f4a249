import TiePoints.Proofs.Angle.Degrees
import TiePoints.Proofs.Block.PointQueries
import TiePoints.Proofs.Result

/-!
# The range of angles

The sines and cosines of finite samples are bounded, and so is every mixture of
them, whatever the place: weights are bounded by the number of points even where
rounding makes them leave the unit interval.  A mixture is therefore never
undefined, and the direction of a pair of them is an angle between `-180` and
`180`.  Neither range that angles are kept in is met at its open end.  Where
angles wrap at 180 the direction `-π` is answered by `-180`, and where they wrap
at 360 a direction on the brink below zero is answered by `360`.
-/

namespace TiePoints

open Double Float.Model.UnpackedFloat

/-! ## Mixtures -/

namespace Double.Within

theorem zero : Within 0 (Scalar.zero : Float) := ofNat (Nat.zero_le _) (by decide)

theorem one : Within 0 (1 : Float) := by
  have hone : (1 : Float) = Scalar.ofNat 1 := by decide +kernel
  rw [hone]
  exact ofNat le_rfl (by decide)

theorem neg_one : Within 0 (-1 : Float) := by
  have hvalue : value (-1) = -1 :=
    value_of_unpack .negative 4503599627370496 (-52) (by decide) rfl (by norm_num [Sign.apply])
  refine ⟨by decide +kernel, ?_⟩
  rw [hvalue]
  norm_num

theorem locate_weight {points : Nat} (hp : points ≤ Index.limit) (index : Float) :
    Within 65 (Cell.locate points index).weight := by
  have hlimit : Index.limit = 2 ^ 64 := rfl
  have hclamped : Within 64 (clampedIndex points index) := by
    unfold clampedIndex
    split_ifs with hnan
    · exact zero.mono (by decide)
    · exact clamp hnan (zero.mono (by decide)) (ofNat (by omega) (by decide))
  have horigin := Cell.locate_origin_le points index
  exact hclamped.sub (ofNat (by omega) (by decide)) (by decide)

theorem mix {wx wy v00 v10 v01 v11 : Float} (hwx : Within 65 wx) (hwy : Within 65 wy)
    (h00 : Within 0 v00) (h10 : Within 0 v10) (h01 : Within 0 v01) (h11 : Within 0 v11) :
    Within 134 (TiePoints.mix wx wy v00 v10 v01 v11) := by
  have hrow : Within 66 (wx * (v10 - v00)) := hwx.mul (h10.sub h00 (by decide)) (by decide)
  have hcolumn : Within 66 (wy * (v01 - v00)) := hwy.mul (h01.sub h00 (by decide)) (by decide)
  have hsum : Within 68 (v00 + wx * (v10 - v00) + wy * (v01 - v00)) :=
    ((h00.mono (by decide)).add hrow (by decide)).add (hcolumn.mono (by decide)) (by decide)
  have hcross : Within 3 (v11 + v00 - v01 - v10) :=
    ((h11.add h00 (by decide)).sub (h01.mono (by decide)) (by decide)).sub
      (h10.mono (by decide)) (by decide)
  have hproduct : Within 133 (wx * wy * (v11 + v00 - v01 - v10)) :=
    (hwx.mul hwy (by decide)).mul hcross (by decide)
  exact (hsum.mono (by decide)).add hproduct (by decide)

end Double.Within

namespace Grid

variable {g : Grid Float}

theorem within_sample (hs : ∀ v ∈ g.samples, Within 0 v) {i j : ℕ} {v : Float}
    (h : g.sample i j = .ok v) : Within 0 v :=
  hs v (Array.mem_of_getElem? (sampleAt_eq_ok_iff.mp (sample_eq_ok.mp h).2))

/-- Whatever is mixed from bounded samples is bounded. -/
theorem within_mixAtPlace (hwidth : g.width ≤ Index.limit) (hheight : g.height ≤ Index.limit)
    (hs : ∀ v ∈ g.samples, Within 0 v) {x y v : Float} (h : g.mixAtPlace x y = .ok v) :
    Within 134 v := by
  obtain ⟨c, hc, rfl⟩ := map_eq_ok.mp h
  obtain ⟨h00, h10, h01, h11⟩ := cornerSamples_eq_ok.mp hc
  exact .mix (.locate_weight hwidth _) (.locate_weight hheight _) (within_sample hs h00)
    (within_sample hs h10) (within_sample hs h01) (within_sample hs h11)

end Grid

/-! ## Directions -/

variable [libm : Circular Float]

theorem Discontinuity.combine_at180 (s c : Float) :
    Discontinuity.at180.combine s c = Circular.toDegrees (Circular.atan2 s c) := by
  simp [combine]

theorem Discontinuity.combine_at360 (s c : Float) : Discontinuity.at360.combine s c =
    if Circular.toDegrees (Circular.atan2 s c) < 0 then
      Circular.toDegrees (Circular.atan2 s c) + Scalar.ofNat 360
    else Circular.toDegrees (Circular.atan2 s c) := by
  simp only [combine, beq_self_eq_true, Bool.and_true, decide_eq_true_eq]
  rfl

namespace Circular.Documented

variable (hlib : libm.Documented)

include hlib

theorem toDegrees_eq (r : Float) : Circular.toDegrees r = r * degreesPerRadian := by
  have hpi : (Circular.pi : Float) = piDouble := hlib.pi_eq
  rw [Circular.toDegrees, hpi]
  rfl

theorem toRadians_isFinite {a : Float} (ha : Scalar.isFinite a) :
    Scalar.isFinite (Circular.toRadians a) := by
  have hpi : (Circular.pi : Float) = piDouble := hlib.pi_eq
  have hk : Scalar.isFinite radiansPerDegree := by decide +kernel
  have hhalf : |value radiansPerDegree| ≤ 1 / 2 := by
    rw [value_radiansPerDegree, abs_of_pos (by norm_num)]
    norm_num
  have hbound : |value a * value radiansPerDegree| ≤ 2 ^ 1023 := by
    have hmax : |value a| < 2 ^ 1023 * 2 := by
      rw [← pow_succ]
      exact abs_value_lt ha
    rw [abs_mul]
    -- the power is too large to be multiplied out
    generalize (2 : ℚ) ^ 1023 = top at hmax ⊢
    calc |value a| * |value radiansPerDegree| ≤ |value a| * (1 / 2) :=
          mul_le_mul_of_nonneg_left hhalf (abs_nonneg _)
      _ ≤ top := by linarith
  rw [Circular.toRadians, hpi]
  exact (isNearest_mul ha hk hbound).isFinite

theorem within_component {f : Float → Float}
    (hf : ∀ x : Float, Scalar.isFinite x → -1 ≤ f x ∧ f x ≤ 1) {a : Float}
    (ha : Scalar.isFinite a) : Within 0 (Scalar.toSingle (f (Circular.toRadians a))) := by
  obtain ⟨hlo, hhi⟩ := hf _ (hlib.toRadians_isFinite ha)
  exact (Within.of_le_of_le Within.neg_one Within.one hlo hhi).toSingle (by decide)

/-- The components at a place of a grid of angles are numbers. -/
theorem isFinite_components {g : Grid Float} (hwidth : g.width ≤ Index.limit)
    (hheight : g.height ≤ Index.limit) (ha : ∀ a ∈ g.samples, Scalar.isFinite a) {x y s c : Float}
    (hs : g.components.sin.mixAtPlace x y = .ok s) (hc : g.components.cos.mixAtPlace x y = .ok c) :
    Scalar.isFinite s ∧ Scalar.isFinite c := by
  have hsin : ∀ v ∈ g.components.sin.samples, Within 0 v := by
    intro v hv
    obtain ⟨a, hmem, rfl⟩ := Array.mem_map.mp hv
    exact hlib.within_component hlib.sin_mem (ha a hmem)
  have hcos : ∀ v ∈ g.components.cos.samples, Within 0 v := by
    intro v hv
    obtain ⟨a, hmem, rfl⟩ := Array.mem_map.mp hv
    exact hlib.within_component hlib.cos_mem (ha a hmem)
  constructor
  · exact (Grid.within_mixAtPlace (g := g.components.sin) hwidth hheight hsin hs).isFinite
  · exact (Grid.within_mixAtPlace (g := g.components.cos) hwidth hheight hcos hc).isFinite

section Directions

variable {s c : Float} (hs : Scalar.isFinite s) (hc : Scalar.isFinite c)

include hs hc

/-- The direction of a pair of numbers lies between `-π` and `π`. -/
theorem direction_mem :
    Scalar.isFinite (Circular.atan2 s c) ∧ |value (Circular.atan2 s c)| ≤ value piDouble := by
  obtain ⟨hlo, hhi⟩ := hlib.atan2_mem s c (not_isNaN_of_isFinite hs) (not_isNaN_of_isFinite hc)
  have hpi : (Circular.pi : Float) = piDouble := hlib.pi_eq
  have hfin : Scalar.isFinite piDouble := by decide +kernel
  have hneg : Scalar.isFinite (-piDouble) := by decide +kernel
  rw [hpi] at hlo hhi
  have hdir := isFinite_of_le_of_le hneg hfin hlo hhi
  rw [le_iff_value_le hneg hdir, value_neg_piDouble] at hlo
  rw [le_iff_value_le hdir hfin] at hhi
  refine ⟨hdir, abs_le.mpr ⟨?_, hhi⟩⟩
  rw [value_piDouble]
  linarith

theorem degrees_mem :
    Scalar.isFinite (Circular.toDegrees (Circular.atan2 s c)) ∧
      |value (Circular.toDegrees (Circular.atan2 s c))| ≤ 180 := by
  obtain ⟨hdir, hpi⟩ := hlib.direction_mem hs hc
  rw [hlib.toDegrees_eq]
  exact ⟨(isNearest_degrees hdir hpi).isFinite, abs_degrees_le hdir hpi⟩

/-- Where angles wrap at 180 the direction `-π` alone is answered by `-180`. -/
theorem combine_at180_range :
    -180 ≤ Discontinuity.at180.combine s c ∧ Discontinuity.at180.combine s c ≤ 180 ∧
      (-180 < Discontinuity.at180.combine s c ↔ Circular.atan2 s c ≠ -Circular.pi) := by
  obtain ⟨hdir, hpi⟩ := hlib.direction_mem hs hc
  obtain ⟨hfin, hmem⟩ := hlib.degrees_mem hs hc
  have hlow : Scalar.isFinite (-180 : Float) := by decide +kernel
  have hhigh : Scalar.isFinite (180 : Float) := by decide +kernel
  have hv180 : value (180 : Float) = 180 := value_180
  have hdouble : (Circular.pi : Float) = piDouble := hlib.pi_eq
  obtain ⟨hge, hle⟩ := abs_le.mp hmem
  rw [Discontinuity.combine_at180, le_iff_value_le hlow hfin, le_iff_value_le hfin hhigh,
    lt_iff_value_lt hlow hfin, value_neg_180, hv180, hdouble]
  refine ⟨hge, hle, ?_, ?_⟩
  · intro hlt heq
    rw [hlib.toDegrees_eq, heq, neg_piDouble_degrees, value_neg_180] at hlt
    exact lt_irrefl _ hlt
  · intro hne
    rw [hlib.toDegrees_eq]
    exact neg_lt_degrees hdir hpi hne

/-- Where angles wrap at 360 a direction on the brink alone is answered by `360`. -/
theorem combine_at360_range :
    0 ≤ Discontinuity.at360.combine s c ∧ Discontinuity.at360.combine s c ≤ 360 ∧
      (Discontinuity.at360.combine s c < 360 ↔
        ¬ (brink ≤ Circular.toDegrees (Circular.atan2 s c) ∧
          Circular.toDegrees (Circular.atan2 s c) < 0)) := by
  obtain ⟨hfin, hmem⟩ := hlib.degrees_mem hs hc
  rw [Discontinuity.combine_at360]
  generalize Circular.toDegrees (Circular.atan2 s c) = d at hfin hmem ⊢
  obtain ⟨hge, hle⟩ := abs_le.mp hmem
  have hzero : Scalar.isFinite (0 : Float) := by decide +kernel
  have hend : Scalar.isFinite (360 : Float) := by decide +kernel
  have hbrink : Scalar.isFinite brink := by decide +kernel
  have hv360 : value (360 : Float) = 360 := value_360
  by_cases hneg : d < 0
  · have hbelow := hneg
    rw [lt_iff_value_lt hfin hzero, value_zero] at hbelow
    have hturn := (isNearest_turn hfin hge hbelow).isFinite
    obtain ⟨hlow, hhigh⟩ := turn_mem hfin hge hbelow
    rw [if_pos hneg, le_iff_value_le hzero hturn, le_iff_value_le hturn hend,
      lt_iff_value_lt hturn hend, le_iff_value_le hbrink hfin, value_zero, hv360,
      turn_lt_iff hfin hge hbelow]
    refine ⟨by linarith, hhigh, ?_⟩
    simp [hneg]
  · have habove := hneg
    rw [lt_iff_value_lt hfin hzero, value_zero, not_lt] at habove
    rw [if_neg hneg, le_iff_value_le hzero hfin, le_iff_value_le hfin hend,
      lt_iff_value_lt hfin hend, value_zero, hv360]
    refine ⟨habove, by linarith, ?_⟩
    simp only [hneg, and_false, not_false_eq_true, iff_true]
    linarith

end Directions

end Circular.Documented

end TiePoints
