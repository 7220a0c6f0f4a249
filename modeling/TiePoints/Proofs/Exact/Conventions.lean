import Mathlib.Analysis.SpecialFunctions.Complex.Arg
import TiePoints.Proofs.Block.Outcome
import TiePoints.Proofs.Exact.Arc
import TiePoints.Proofs.Grid.Admission

/-!
# Conventions of angles

Angles are kept between half turns or within a turn.  A grid that is told to
hold angles infers where they wrap from the samples alone.  If all of them obey
one of the two conventions, the inferred place is that of a convention that they
obey: samples above 180 leave only turns, and samples within a turn that do not
exceed 180 lie between half turns as well.  At a tie point all the weight is on
its own corner, so the vector mixed there is the sine and the cosine of its
sample, and the direction of these is the sample itself.
-/

namespace TiePoints

open Exact

variable {K : Type} [Field K] [LinearOrder K]

/-- The conventions of angles: an angle that a grid may hold whose angles jump there. -/
inductive Discontinuity.Keeps : Discontinuity → K → Prop
  | none (a : K) : Keeps none a
  | at180 {a : K} : a ∈ Set.Ioc (-180) 180 → Keeps at180 a
  | at360 {a : K} : a ∈ Set.Ico 0 360 → Keeps at360 a

variable [FloorRing K]

/-- The angle that is found from the sine and the cosine of an angle. -/
def Circular.recovered (c : Circular K) (a : K) : K :=
  Circular.toDegrees (c.atan2 (c.sin (Circular.toRadians a)) (c.cos (Circular.toRadians a)))

/-- The direction of the sine and the cosine of an angle is the representative of the angle that
lies between half turns. -/
structure Circular.Principal (c : Circular K) : Prop where
  recovered_mem : ∀ a : K, c.recovered a ∈ Set.Ioc (-180 : K) 180
  recovered_eq_add_turns : ∀ a : K, ∃ n : ℤ, c.recovered a = a + n * 360

namespace Exact

/-! ## Inferred wraps -/

theorem isAngular_infer (samples : Array K) : (Discontinuity.infer samples).isAngular := by
  unfold Discontinuity.infer
  split_ifs <;> rfl

variable [IsStrictOrderedRing K]

/-- The inferred place of the jump belongs to a convention that the samples obey. -/
theorem keeps_infer {samples : Array K}
    (h : (∀ a ∈ samples, a ∈ Set.Ioc (-180 : K) 180) ∨ ∀ a ∈ samples, a ∈ Set.Ico (0 : K) 360)
    {a : K} (ha : a ∈ samples) : (Discontinuity.infer samples).Keeps a := by
  unfold Discontinuity.infer
  split_ifs with hany
  · -- a sample above 180 excludes half turns
    obtain ⟨b, hb, habove⟩ := Array.any_eq_true'.mp hany
    have habove : 180 < b := by simpa using habove
    rcases h with hhalf | hturn
    · exact absurd (hhalf b hb).2 habove.not_ge
    · exact .at360 (hturn a ha)
  · have hbelow : a ≤ 180 := by
      by_contra habove
      exact hany (Array.any_eq_true'.mpr ⟨a, ha, by simpa using habove⟩)
    rcases h with hhalf | hturn
    · exact .at180 (hhalf a ha)
    · exact .at180 ⟨by linarith [(hturn a ha).1], hbelow⟩

/-! ## Recovered angles -/

/-- There is one representative between half turns. -/
theorem eq_of_mem_of_eq_add_turns {a b : K} (ha : a ∈ Set.Ioc (-180 : K) 180)
    (hb : b ∈ Set.Ioc (-180 : K) 180) {n : ℤ} (h : a = b + n * 360) : a = b := by
  obtain ⟨halow, hahigh⟩ := ha
  obtain ⟨hblow, hbhigh⟩ := hb
  have hlow : (-1 : K) < n := by linarith
  have hhigh : (n : K) < 1 := by linarith
  have hn : n = 0 := by
    have hlow : -1 < n := by exact_mod_cast hlow
    have hhigh : n < 1 := by exact_mod_cast hhigh
    omega
  rw [h, hn, Int.cast_zero, zero_mul, add_zero]

section Recovered

variable [lib : Circular K] (hlib : lib.Principal)

include hlib

theorem recovered_eq {a b : K} (hb : b ∈ Set.Ioc (-180 : K) 180) (k : ℤ)
    (h : a = b + k * 360) : lib.recovered a = b := by
  obtain ⟨n, hn⟩ := hlib.recovered_eq_add_turns a
  refine eq_of_mem_of_eq_add_turns (hlib.recovered_mem a) hb (n := k + n) ?_
  rw [hn, h, Int.cast_add]
  ring

/-- An angle in its convention is recovered. -/
theorem combine_eq_self {w : Discontinuity} (hw : w.isAngular) {a : K} (ha : w.Keeps a) :
    w.combine (lib.sin (Circular.toRadians a)) (lib.cos (Circular.toRadians a)) = a := by
  have hcombine : w.combine (lib.sin (Circular.toRadians a)) (lib.cos (Circular.toRadians a)) =
      if lib.recovered a < 0 && w == .at360 then lib.recovered a + 360 else lib.recovered a := by
    simp only [Discontinuity.combine, zero_eq, ofNat_eq]
    rfl
  rw [hcombine]
  cases ha with
  | none => cases hw
  | at180 hmem =>
      rw [recovered_eq hlib hmem 0 (by simp)]
      simp
  | at360 hmem =>
      obtain ⟨hlow, hhigh⟩ := hmem
      rcases le_or_gt a 180 with hbelow | habove
      · rw [recovered_eq hlib ⟨by linarith, hbelow⟩ 0 (by simp)]
        simp [hlow.not_gt]
      · -- the representative is a turn lower, and is turned back
        have hmem : a - 360 ∈ Set.Ioc (-180 : K) 180 := ⟨by linarith, by linarith⟩
        rw [recovered_eq hlib hmem 1 (by rw [Int.cast_one]; ring)]
        have hneg : a - 360 < 0 := by linarith
        simp [hneg]

end Recovered

theorem principal_arg : Circular.Principal (K := ℝ)
    ⟨Real.pi, Real.sin, Real.cos, fun y x => Complex.arg ⟨x, y⟩⟩ := by
  set lib : Circular ℝ := ⟨Real.pi, Real.sin, Real.cos, fun y x => Complex.arg ⟨x, y⟩⟩
  have hlib : lib.Directional := Circular.directional_arg
  have hradians : ∀ a : ℝ, radians (lib.recovered a) =
      Complex.arg ⟨Real.cos (radians a), Real.sin (radians a)⟩ := by
    intro a
    rw [Circular.recovered, radians_toDegrees hlib, toRadians_eq hlib]
    rfl
  constructor
  · intro a
    have hmem := Complex.arg_mem_Ioc ⟨Real.cos (radians a), Real.sin (radians a)⟩
    rw [← hradians, ← radians_half_turn, ← radians_neg] at hmem
    exact ⟨radians_strictMono.lt_iff_lt.mp hmem.1, radians_strictMono.le_iff_le.mp hmem.2⟩
  · intro a
    have harg := Complex.arg_cos_add_sin_mul_I_eq_toIocMod (radians a)
    rw [← Complex.ofReal_cos, ← Complex.ofReal_sin, ← Complex.mk_eq_add_mul_I, ← hradians,
      ← self_sub_toIocDiv_mul] at harg
    refine ⟨-toIocDiv Real.two_pi_pos (-Real.pi) (radians a), radians_strictMono.injective ?_⟩
    rw [harg, radians_add_turns, Int.cast_neg, neg_mul]
    rfl

/-! ## Tie points -/

section Points

variable {g : Grid K} {i j : ℕ}

omit [IsStrictOrderedRing K] in
/-- All weight is on one of the corners. -/
theorem exists_sample_of_weights {l : Lookup K} {c : Corners K}
    (hcolumn : l.column.origin = i ∧ l.column.weight = 0 ∨
      l.column.origin + 1 = i ∧ l.column.weight = 1)
    (hrow : l.row.origin = j ∧ l.row.weight = 0 ∨ l.row.origin + 1 = j ∧ l.row.weight = 1)
    (hc : g.cornerSamples l = .ok c) :
    ∃ a, g.sample i j = .ok a ∧ ∀ f : K → K, (c.map f).mix l = f a := by
  obtain ⟨h00, h10, h01, h11⟩ := Grid.cornerSamples_eq_ok.mp hc
  rcases hcolumn with ⟨rfl, hwx⟩ | ⟨rfl, hwx⟩ <;> rcases hrow with ⟨rfl, hwy⟩ | ⟨rfl, hwy⟩
  · exact ⟨_, h00, fun f => by simp [Corners.mix, Corners.map, mix_eq, hwx, hwy]⟩
  · exact ⟨_, h01, fun f => by simp [Corners.mix, Corners.map, mix_eq, hwx, hwy]⟩
  · exact ⟨_, h10, fun f => by simp [Corners.mix, Corners.map, mix_eq, hwx, hwy]⟩
  · exact ⟨_, h11, fun f => by simp [Corners.mix, Corners.map, mix_eq, hwx, hwy]⟩

variable [lib : Circular K] [Decomposition K] (hlib : lib.Principal)

include hlib

/-- At a tie point the sample is answered. -/
theorem exists_sample_at_position (h : g.Consistent) (hangular : g.discontinuity.isAngular)
    (hkeeps : ∀ a ∈ g.samples, g.discontinuity.Keeps a) (hi : i < g.width) (hj : j < g.height) :
    ∃ v, g.sample i j = .ok v ∧
      g.sampler.valueAt (g.geometry.x.position i) (g.geometry.y.position j) = .ok v := by
  have hx := spacing_pos_of_hasPositiveSpacing h.valid.spacing_x
  have hy := spacing_pos_of_hasPositiveSpacing h.valid.spacing_y
  obtain ⟨v, hv⟩ := h.exists_value (g.geometry.x.position i) (g.geometry.y.position j)
  refine ⟨v, ?_, hv⟩
  rw [Grid.valueAt_of_angular hangular, map_eq_ok] at hv
  obtain ⟨c, hc, rfl⟩ := hv
  obtain ⟨a, ha, hmix⟩ := exists_sample_of_weights (cell_position hx hi h.width_ge h.width_lt)
    (cell_position hy hj h.height_ge h.height_lt) hc
  have hmem : a ∈ g.samples :=
    Array.mem_of_getElem? (Grid.sampleAt_eq_ok_iff.mp (Grid.sample_eq_ok.mp ha).2)
  have hself := combine_eq_self hlib hangular (hkeeps a hmem)
  rw [Corners.mixSin, Corners.mixCos, hmix, hmix, ha]
  exact congrArg _ hself.symm

/-- A grid of angles that obey a convention answers at each of its tie points with the sample
itself, in that convention. -/
theorem ofAngles_recovers_samples {name : String} {geometry : Geometry K} {samples : Array K}
    (hg : Grid.ofAngles name geometry samples true = .ok g)
    (hconvention : (∀ a ∈ samples, a ∈ Set.Ioc (-180 : K) 180) ∨
      ∀ a ∈ samples, a ∈ Set.Ico (0 : K) 360) :
    ∀ i < g.width, ∀ j < g.height, ∃ v, g.sample i j = .ok v ∧
      g.sampler.valueAt (g.geometry.x.position i) (g.geometry.y.position j) = .ok v := by
  obtain ⟨hvalid, rfl⟩ := Grid.build_eq_ok_iff.mp hg
  intro i hi j hj
  exact exists_sample_at_position hlib ⟨hvalid⟩ (isAngular_infer _)
    (fun a ha => keeps_infer hconvention ha) hi hj

end Points

/-- Four directions within a turn, the last of them beyond half a turn, at the first and the last
tie point. -/
theorem ofAngles_recovers_samples_within_turn :
    let _ : Circular ℝ := ⟨Real.pi, Real.sin, Real.cos, fun y x => Complex.arg ⟨x, y⟩⟩
    let _ : Decomposition ℝ := ⟨fun _ => 0, fun _ _ => 0, fun _ => none⟩
    let g : Grid ℝ := ⟨"azimuth", none, none, ⟨⟨2, 1 / 2, 2⟩, ⟨2, 1 / 2, 2⟩⟩,
      #[350, 10, 0, 200], .at360⟩
    Grid.ofAngles "azimuth" g.geometry g.samples true = .ok g ∧
      g.sampler.valueAt (1 / 2) (1 / 2) = .ok 350 ∧
      g.sampler.valueAt (5 / 2) (5 / 2) = .ok 200 := by
  intro lib _ g
  have hinfer : Discontinuity.infer g.samples = .at360 := by
    norm_num [Discontinuity.infer, g]
  have hg : Grid.ofAngles "azimuth" g.geometry g.samples true = .ok g := by
    refine Grid.build_eq_ok_iff.mpr ⟨⟨le_rfl, le_rfl, rfl, by decide,
      hasPositiveSpacing_of_pos two_pos, hasPositiveSpacing_of_pos two_pos, rfl, rfl⟩, ?_⟩
    rw [if_pos rfl, hinfer]
  have hturn : ∀ a ∈ g.samples, a ∈ Set.Ico (0 : ℝ) 360 := by
    simp only [g, List.mem_toArray, List.forall_mem_cons, List.not_mem_nil, false_implies,
      implies_true, and_true]
    norm_num
  have hanswer := ofAngles_recovers_samples principal_arg hg (.inr hturn)
  have hposition : ∀ i : ℕ, (⟨2, 1 / 2, 2⟩ : Axis ℝ).position i = 1 / 2 + i * 2 := fun _ => rfl
  obtain ⟨v, hv, hfirst⟩ := hanswer 0 (by decide) 0 (by decide)
  obtain ⟨w, hw, hlast⟩ := hanswer 1 (by decide) 1 (by decide)
  obtain rfl : 350 = v := Except.ok.inj hv
  obtain rfl : 200 = w := Except.ok.inj hw
  simp only [g, hposition] at hfirst hlast
  norm_num at hfirst hlast
  exact ⟨hg, hfirst, hlast⟩

end Exact

end TiePoints
