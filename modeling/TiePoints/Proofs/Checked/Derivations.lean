import TiePoints.CachedGrid
import TiePoints.Proofs.Checked.Samples
import TiePoints.Proofs.Grid.Rectangles
import TiePoints.Proofs.Result

/-!
# Chains of derived grids

From a grid others are derived: copies, subsets, grids of zenith angles, and the
component grids of angles, which are not validated.  Two more derivations change
what is remembered or where angles wrap.  Each of them leads from a consistent
grid to a consistent one, and so does every chain of them.

A derivation takes no step out of range.  Windows are the one place where this
is not plain: they come of quotients that may be infinite or undefined, and still
the bounds between which their size is taken are in order and the rectangle of
kept tie points lies in the grid.
-/

namespace TiePoints

open Checked

variable {α : Type}

/-- The member of `[lo, hi]` nearest to a number, if the bounds are in order. -/
def Checked.clamp (lo hi n : Nat) : Checked α Nat := do
  let _ ← sub hi lo
  return max lo (min n hi)

theorem Checked.clamp_eq {lo hi : Nat} (h : lo ≤ hi) (n : Nat) :
    (clamp lo hi n : Checked α Nat) = .ok (max lo (min n hi)) := by
  simp only [clamp, sub_eq h]
  rfl

variable [Scalar α]

/-! ## Derivations in checked steps -/

def Window.checkedCovering (t0 spacing extent : α) (available : Nat) : Checked α Window := do
  let first := min (Scalar.floorIndex (-t0 / spacing)) (← sub available 2)
  let offset := t0 + Scalar.ofNat first * spacing
  let needed := Index.addSaturating (Scalar.ceilIndex ((extent - offset) / spacing)) 2
  let count ← Checked.clamp 2 (← sub available first) needed
  return { first, count }

theorem Window.checkedCovering_eq {available : Nat} (h : 2 ≤ available) (t0 spacing extent : α) :
    checkedCovering t0 spacing extent available = .ok (covering t0 spacing extent available) := by
  have hfirst : min (Scalar.floorIndex (-t0 / spacing)) (available - 2) ≤ available - 2 :=
    covering_first_le t0 spacing extent available
  simp only [checkedCovering, covering, sub_eq h, bind, Except.bind]
  generalize min (Scalar.floorIndex (-t0 / spacing)) (available - 2) = first at hfirst ⊢
  have hrest : (sub available first : Checked α Nat) = .ok (available - first) := sub_eq (by omega)
  have hbounds : 2 ≤ available - first := by omega
  simp only [hrest, Checked.clamp_eq hbounds]
  rfl

def Axis.checkedSubsetWindow (a : Axis α) (start length step : Nat) : Checked α Window :=
  Window.checkedCovering (a.subsetOffset start step) (a.subsetSpacing step)
    (Scalar.ofNat ((length + step - 1) / step)) a.points

theorem Axis.checkedSubsetWindow_eq {a : Axis α} (h : 2 ≤ a.points) (start length step : Nat) :
    a.checkedSubsetWindow start length step = .ok (a.subsetWindow start length step) :=
  Window.checkedCovering_eq h _ _ _

namespace Grid

def checkedBuild (name : String) (geometry : Geometry α) (samples : Array α)
    (d : Discontinuity) : Checked α (Grid α) := do
  let _ ← mul geometry.x.points geometry.y.points
  ofResult (build name geometry samples d)

def checkedSubset (g : Grid α) (region : Option Region) (stepX stepY : Nat) :
    Checked α (Grid α) :=
  if stepX = 0 ∨ stepY = 0 then .error (.failure (.geometry (.zeroStep stepX stepY)))
  else
    let r := region.getD g.geometry.scene
    if r.isEmpty then .error (.failure (.geometry (.emptyRegion r.width r.height)))
    else do
      let columns ← g.geometry.x.checkedSubsetWindow r.x r.width stepX
      let rows ← g.geometry.y.checkedSubsetWindow r.y r.height stepY
      let samples ← g.checkedRead ⟨columns.first, rows.first, columns.count, rows.count⟩
      let subset ← checkedBuild g.name (g.geometry.subset r stepX stepY) samples g.discontinuity
      return subset.describedAs g

def checkedZenith (g : Grid α) : Checked α (Grid α) := do
  let samples := g.samples.map fun a => Scalar.toSingle (Scalar.ofNat 90 - a)
  let zenith ← checkedBuild g.name g.geometry samples .none
  return zenith.describedAs g

/-- A component grid is taken as it is, with its number of samples counted. -/
def checkedComponent (g component : Grid α) : Checked α (Grid α) := do
  let _ ← mul g.width g.height
  return component

end Grid

inductive Derivation
  | copy
  | subset (region : Option Region) (stepX stepY : Nat)
  | zenith
  | wrapAt (d : Discontinuity)
  | release
  | sines
  | cosines
  deriving DecidableEq, Repr

namespace CachedGrid

variable [Circular α]

def derive (c : CachedGrid α) : Derivation → Except (Error α) (CachedGrid α)
  | .copy => .ok c.grid.fresh
  | .subset region stepX stepY => (c.grid.subset region stepX stepY).map Grid.fresh
  | .zenith => c.grid.zenith.map Grid.fresh
  | .wrapAt d => .ok (c.setDiscontinuity d)
  | .release => .ok c.release
  | .sines => .ok c.grid.components.sin.fresh
  | .cosines => .ok c.grid.components.cos.fresh

def checkedDerive (c : CachedGrid α) : Derivation → Checked α (CachedGrid α)
  | .copy => .ok c.grid.fresh
  | .subset region stepX stepY => return (← c.grid.checkedSubset region stepX stepY).fresh
  | .zenith => return (← c.grid.checkedZenith).fresh
  | .wrapAt d => .ok (c.setDiscontinuity d)
  | .release => .ok c.release
  | .sines => return (← c.grid.checkedComponent c.grid.components.sin).fresh
  | .cosines => return (← c.grid.checkedComponent c.grid.components.cos).fresh

def deriveAll (c : CachedGrid α) (ds : List Derivation) : Except (Error α) (CachedGrid α) :=
  ds.foldlM derive c

def checkedDeriveAll (c : CachedGrid α) (ds : List Derivation) : Checked α (CachedGrid α) :=
  ds.foldlM checkedDerive c

end CachedGrid

/-! ## Single derivations -/

namespace Grid

/-- Whether a derivation fails for the placement that it was asked for. -/
def IsRefusal (e : Error α) : Prop := ∃ fault, e = .geometry fault

theorem isRefusal_of_build {name : String} {geometry : Geometry α} {samples : Array α}
    {d : Discontinuity} {e : Error α} (h : build name geometry samples d = .error e)
    (hlimit : geometry.x.points * geometry.y.points < Index.limit) : IsRefusal e := by
  replace h := map_eq_error.mp h
  rw [Geometry.validate, Geometry.countSamples, Index.mul_eq_of_lt hlimit] at h
  simp only [bind, Except.bind] at h
  repeat' split at h
  all_goals cases h
  all_goals exact ⟨_, rfl⟩

theorem checkedBuild_eq {name : String} {geometry : Geometry α} {samples : Array α}
    {d : Discontinuity} (h : geometry.x.points * geometry.y.points < Index.limit) :
    checkedBuild name geometry samples d = ofResult (build name geometry samples d) := by
  simp only [checkedBuild, mul_eq h]
  rfl

variable {g : Grid α} {region : Option Region} {stepX stepY : Nat}

namespace Consistent

theorem checkedSubset_eq (h : g.Consistent) (region : Option Region) (stepX stepY : Nat) :
    g.checkedSubset region stepX stepY = ofResult (g.subset region stepX stepY) := by
  unfold checkedSubset
  obtain ⟨hsteps, heq⟩ | ⟨hsteps, hr, heq⟩ | ⟨hsteps, hr, samples, hread, -, heq⟩ :=
    h.subset_cases region stepX stepY
  · rw [if_pos hsteps, heq]
    rfl
  · rw [if_neg hsteps, heq]
    exact if_pos hr
  · have hlimit : (g.geometry.subset (region.getD g.geometry.scene) stepX stepY).x.points *
        (g.geometry.subset (region.getD g.geometry.scene) stepX stepY).y.points < Index.limit :=
      h.count_kept_lt (region.getD g.geometry.scene) stepX stepY
    simp only [Geometry.kept] at hread
    rw [heq, ofResult_map, ← checkedBuild_eq hlimit, if_neg hsteps]
    simp only [if_neg hr, Axis.checkedSubsetWindow_eq h.width_ge,
      Axis.checkedSubsetWindow_eq h.height_ge, h.checkedRead_eq, hread, bind, Except.bind,
      ofResult_ok]

theorem checkedZenith_eq (h : g.Consistent) : g.checkedZenith = ofResult g.zenith := by
  have hlimit : g.width * g.height < Index.limit := h.size_eq ▸ h.size_lt
  simp only [checkedZenith, checkedBuild_eq hlimit, zenith]
  generalize build g.name g.geometry _ _ = built
  cases built <;> rfl

theorem checkedComponent_eq (h : g.Consistent) (component : Grid α) :
    g.checkedComponent component = .ok component := by
  have hlimit : g.width * g.height < Index.limit := h.size_eq ▸ h.size_lt
  simp only [checkedComponent, mul_eq hlimit]
  rfl

theorem of_build {name : String} {geometry : Geometry α} {samples : Array α} {d : Discontinuity}
    {built : Grid α} (hbuilt : build name geometry samples d = .ok built) : built.Consistent := by
  obtain ⟨hvalid, rfl⟩ := build_eq_ok_iff.mp hbuilt
  exact ⟨hvalid⟩

theorem describedAs {g other : Grid α} (h : g.Consistent) : (g.describedAs other).Consistent :=
  ⟨h.valid⟩

theorem subset (h : g.Consistent) {sub : Grid α}
    (hsub : g.subset region stepX stepY = .ok sub) : sub.Consistent := by
  obtain ⟨samples, built, -, hbuilt, rfl⟩ := h.build_of_subset hsub
  exact (of_build hbuilt).describedAs

theorem of_zenith {z : Grid α} (hz : g.zenith = .ok z) : z.Consistent := by
  obtain ⟨built, hbuilt, hz⟩ := bind_eq_ok.mp hz
  obtain rfl := Except.ok.inj hz
  exact (of_build hbuilt).describedAs

theorem isRefusal_of_subset (h : g.Consistent) {e : Error α}
    (he : g.subset region stepX stepY = .error e) : IsRefusal e := by
  obtain ⟨-, heq⟩ | ⟨-, -, heq⟩ | ⟨-, -, samples, -, -, heq⟩ := h.subset_cases region stepX stepY
  · rw [heq] at he
    cases he
    exact ⟨_, rfl⟩
  · rw [heq] at he
    cases he
    exact ⟨_, rfl⟩
  · rw [heq] at he
    exact isRefusal_of_build (map_eq_error.mp he) (h.count_kept_lt _ _ _)

theorem zenith_eq (h : g.Consistent) :
    g.zenith = .ok ((g.component
      (g.samples.map fun a => Scalar.toSingle (Scalar.ofNat 90 - a))).describedAs g) := by
  have hvalid : g.geometry.Valid
      (g.samples.map fun a => Scalar.toSingle (Scalar.ofNat 90 - a)).size := by
    rw [Array.size_map]
    exact h.valid
  exact bind_eq_ok.mpr ⟨_, build_eq_ok_iff.mpr ⟨hvalid, rfl⟩, rfl⟩

theorem exists_zenith (h : g.Consistent) : ∃ z, g.zenith = .ok z := ⟨_, h.zenith_eq⟩

end Consistent

/-! ## Subsets -/

/-- A subset comes about for steps, a region and a placement that are sound, and is refused
otherwise; it then holds the samples of the rectangle that it keeps, and is described as its
source is. -/
structure SubsetKeeps (g : Grid α) (region : Option Region) (stepX stepY : Nat) : Prop where
  read : ∃ samples,
    g.read (g.geometry.kept (region.getD g.geometry.scene) stepX stepY) = .ok samples
  granted_iff : (∃ sub, g.subset region stepX stepY = .ok sub) ↔
    stepX ≠ 0 ∧ stepY ≠ 0 ∧ ¬ (region.getD g.geometry.scene).isEmpty ∧
      (g.geometry.subset (region.getD g.geometry.scene) stepX stepY).Sound
  refused : ∀ e, g.subset region stepX stepY = .error e → IsRefusal e
  sample_eq : ∀ sub, g.subset region stepX stepY = .ok sub →
    let kept := g.geometry.kept (region.getD g.geometry.scene) stepX stepY
    sub.width = kept.width ∧ sub.height = kept.height ∧
      ∀ i < sub.width, ∀ j < sub.height,
        ∃ v, sub.sample i j = .ok v ∧ g.sample (kept.x + i) (kept.y + j) = .ok v
  described : ∀ sub, g.subset region stepX stepY = .ok sub →
    sub.name = g.name ∧ sub.unit = g.unit ∧ sub.description = g.description ∧
      sub.discontinuity = g.discontinuity

namespace Consistent

theorem exists_sample_of_windowOf {sub : Grid α} {x y : Nat} (h : g.Consistent)
    (hsub : sub.Consistent) (hwin : sub.WindowOf g x y) {i j : Nat} (hi : i < sub.width)
    (hj : j < sub.height) :
    ∃ v, sub.sample i j = .ok v ∧ g.sample (x + i) (y + j) = .ok v := by
  have hw := hwin.width_le
  have hh := hwin.height_le
  refine ⟨_, hsub.sample_eq hi hj, ?_⟩
  rw [h.sample_eq (by omega) (by omega), hwin.node_eq i hi j hj]

theorem subsetKeeps_of_error (h : g.Consistent) {e : Error α}
    (he : g.subset region stepX stepY = .error e)
    (hnot : ¬ (stepX ≠ 0 ∧ stepY ≠ 0 ∧ ¬ (region.getD g.geometry.scene).isEmpty)) :
    g.SubsetKeeps region stepX stepY := by
  obtain ⟨kept, hkept, -⟩ := h.exists_read_kept (region.getD g.geometry.scene) stepX stepY
  have hnone : ∀ sub, g.subset region stepX stepY ≠ .ok sub := by
    intro sub hsub
    rw [he] at hsub
    cases hsub
  refine ⟨⟨kept, hkept⟩, ?_, fun _ => h.isRefusal_of_subset, ?_, ?_⟩
  · exact iff_of_false (fun ⟨sub, hsub⟩ => hnone sub hsub) fun hok =>
      hnot ⟨hok.1, hok.2.1, hok.2.2.1⟩
  · exact fun sub hsub => absurd hsub (hnone sub)
  · exact fun sub hsub => absurd hsub (hnone sub)

theorem subsetKeeps (h : g.Consistent) (region : Option Region) (stepX stepY : Nat) :
    g.SubsetKeeps region stepX stepY := by
  obtain ⟨hsteps, heq⟩ | ⟨-, hr, heq⟩ | ⟨hsteps, hr, samples, hread, hsize, heq⟩ :=
    h.subset_cases region stepX stepY
  · exact h.subsetKeeps_of_error heq fun hok => hsteps.elim hok.1 hok.2.1
  · exact h.subsetKeeps_of_error heq fun hok => hok.2.2 hr
  · have hlimit := h.count_kept_lt (region.getD g.geometry.scene) stepX stepY
    have hbuild : ∀ sub, g.subset region stepX stepY = .ok sub ↔
        (g.geometry.subset (region.getD g.geometry.scene) stepX stepY).Sound ∧
          sub = (⟨g.name, none, none,
            g.geometry.subset (region.getD g.geometry.scene) stepX stepY, samples,
            g.discontinuity⟩ : Grid α).describedAs g := by
      intro sub
      rw [heq, map_eq_ok]
      constructor
      · rintro ⟨built, hbuilt, rfl⟩
        obtain ⟨hvalid, rfl⟩ := build_eq_ok_iff.mp hbuilt
        exact ⟨(Geometry.valid_iff.mp hvalid).1, rfl⟩
      · rintro ⟨hsound, rfl⟩
        have hvalid := Geometry.valid_iff.mpr ⟨hsound, hsize, lt_of_eq_of_lt hsize hlimit⟩
        exact ⟨_, build_eq_ok_iff.mpr ⟨hvalid, rfl⟩, rfl⟩
    refine ⟨⟨samples, hread⟩, ?_, fun _ => h.isRefusal_of_subset, ?_, ?_⟩
    · simp only [hbuild, exists_and_left, exists_eq, and_true]
      exact ⟨fun hsound => ⟨(not_or.mp hsteps).1, (not_or.mp hsteps).2, hr, hsound⟩,
        fun hok => hok.2.2.2⟩
    · intro sub hsub
      have hcons := h.subset hsub
      obtain ⟨-, rfl⟩ := (hbuild sub).mp hsub
      refine ⟨rfl, rfl, fun i hi j hj => ?_⟩
      exact h.exists_sample_of_windowOf hcons (h.windowOf_of_read hread rfl rfl) hi hj
    · intro sub hsub
      obtain ⟨-, rfl⟩ := (hbuild sub).mp hsub
      exact ⟨rfl, rfl, rfl, rfl⟩

end Consistent

end Grid

/-! ## Chains -/

namespace CachedGrid

variable [Circular α] {c : CachedGrid α}

theorem checkedDerive_eq (h : c.grid.Consistent) (d : Derivation) :
    c.checkedDerive d = ofResult (c.derive d) := by
  cases d with
  | subset region stepX stepY =>
      rw [checkedDerive, derive, ofResult_map, h.checkedSubset_eq]
  | zenith => rw [checkedDerive, derive, ofResult_map, h.checkedZenith_eq]
  | sines =>
      rw [checkedDerive, h.checkedComponent_eq]
      rfl
  | cosines =>
      rw [checkedDerive, h.checkedComponent_eq]
      rfl
  | _ => rfl

theorem consistent_of_derive (h : c.grid.Consistent) {d : Derivation} {next : CachedGrid α}
    (hd : c.derive d = .ok next) : next.grid.Consistent := by
  cases d with
  | subset region stepX stepY =>
      obtain ⟨sub, hsub, rfl⟩ := map_eq_ok.mp hd
      exact h.subset hsub
  | zenith =>
      obtain ⟨z, hz, rfl⟩ := map_eq_ok.mp hd
      exact Grid.Consistent.of_zenith hz
  | wrapAt d =>
      obtain rfl := Except.ok.inj hd
      exact ⟨h.valid⟩
  | copy =>
      obtain rfl := Except.ok.inj hd
      exact h
  | release =>
      obtain rfl := Except.ok.inj hd
      exact h
  | sines =>
      obtain rfl := Except.ok.inj hd
      exact h.components.1
  | cosines =>
      obtain rfl := Except.ok.inj hd
      exact h.components.2

theorem isRefusal_of_derive (h : c.grid.Consistent) {d : Derivation} {e : Error α}
    (he : c.derive d = .error e) : Grid.IsRefusal e := by
  cases d with
  | subset region stepX stepY => exact h.isRefusal_of_subset (map_eq_error.mp he)
  | zenith =>
      obtain ⟨z, hz⟩ := h.exists_zenith
      rw [derive, hz] at he
      cases he
  | _ => cases he

theorem checkedDeriveAll_eq (h : c.grid.Consistent) (ds : List Derivation) :
    c.checkedDeriveAll ds = ofResult (c.deriveAll ds) := by
  induction ds generalizing c with
  | nil => rfl
  | cons d ds ih =>
      rw [checkedDeriveAll, deriveAll, List.foldlM_cons, List.foldlM_cons, checkedDerive_eq h]
      cases hd : c.derive d with
      | error e => rfl
      | ok next => exact ih (consistent_of_derive h hd)

theorem consistent_of_deriveAll (h : c.grid.Consistent) {ds : List Derivation}
    {last : CachedGrid α} (hds : c.deriveAll ds = .ok last) : last.grid.Consistent := by
  induction ds generalizing c with
  | nil =>
      obtain rfl := Except.ok.inj hds
      exact h
  | cons d ds ih =>
      obtain ⟨next, hd, hds⟩ := bind_eq_ok.mp hds
      exact ih (consistent_of_derive h hd) hds

theorem isRefusal_of_deriveAll (h : c.grid.Consistent) {ds : List Derivation} {e : Error α}
    (he : c.deriveAll ds = .error e) : Grid.IsRefusal e := by
  induction ds generalizing c with
  | nil => cases he
  | cons d ds ih =>
      rcases bind_eq_error.mp he with hd | ⟨next, hd, he⟩
      · exact isRefusal_of_derive h hd
      · exact ih (consistent_of_derive h hd) he

/-- A derivation that leads back to the grid may be repeated. -/
theorem deriveAll_replicate {d : Derivation} (h : c.derive d = .ok c) (n : Nat) :
    c.deriveAll (List.replicate n d) = .ok c := by
  induction n with
  | zero => rfl
  | succ n ih =>
      rw [List.replicate_succ, deriveAll, List.foldlM_cons, h]
      exact ih

/-- A chain of derivations from a consistent grid takes no step out of range.  It ends with a
consistent grid or is refused, and its last grid gives rise to a grid of zenith angles and to the
subsets that it should.  The window of an axis of two points or more, whatever the scalars that it
is taken from, is found between bounds in order and lies in the axis. -/
theorem deriveAll_consistent (h : c.grid.Consistent) (ds : List Derivation) :
    c.checkedDeriveAll ds = ofResult (c.deriveAll ds) ∧
      (∀ e, c.deriveAll ds = .error e → Grid.IsRefusal e) ∧
      (∀ last, c.deriveAll ds = .ok last →
        last.grid.Consistent ∧ (∃ z, last.grid.zenith = .ok z) ∧
          ∀ region stepX stepY, last.grid.SubsetKeeps region stepX stepY) ∧
      ∀ (t0 spacing extent : α) (available : Nat), 2 ≤ available →
        let window := Window.covering t0 spacing extent available
        Window.checkedCovering t0 spacing extent available = .ok window ∧
          2 ≤ window.count ∧ window.first + window.count ≤ available := by
  refine ⟨checkedDeriveAll_eq h ds, fun _ => isRefusal_of_deriveAll h, ?_, ?_⟩
  · intro last hlast
    have hcons := consistent_of_deriveAll h hlast
    exact ⟨hcons, hcons.exists_zenith, hcons.subsetKeeps⟩
  · intro t0 spacing extent available havailable
    exact ⟨Window.checkedCovering_eq havailable t0 spacing extent,
      Window.two_le_covering_count t0 spacing extent available, Window.covering_end_le havailable⟩

/-- A chain through all kinds of derivations from a grid whose columns stand as close as doubles
can tell, and the subset of every second column, whose spacing is no longer a positive double. -/
theorem deriveAll_consistent_of_least_spacing :
    let g : Grid Float :=
      ⟨"azimuth", some "deg", none, ⟨⟨3, 0.5, 5e-324⟩, ⟨2, 0.5, 2⟩⟩, #[350, 0, 10, 20, 30, 40],
        .at360⟩
    let chain : List Derivation :=
      [.wrapAt .at180, .subset (some ⟨0, 0, 1, 2⟩) 1 2, .zenith, .release, .sines, .copy, .cosines]
    g.Consistent ∧ (∃ last, g.fresh.deriveAll chain = .ok last ∧ last.grid.Consistent) ∧
      (∃ e, g.fresh.deriveAll [.subset none 2 1] = .error e ∧ Grid.IsRefusal e) := by
  intro g chain
  have h : g.Consistent := by decide +kernel
  obtain ⟨-, -, hchain, -⟩ := deriveAll_consistent (c := g.fresh) h chain
  obtain ⟨-, hrefused, -⟩ := deriveAll_consistent (c := g.fresh) h [.subset none 2 1]
  refine ⟨h, ?_, ?_⟩
  · cases hlast : g.fresh.deriveAll chain with
    | error e =>
        have hok : (g.fresh.deriveAll chain).isOk = true := by decide +kernel
        rw [hlast] at hok
        cases hok
    | ok last => exact ⟨last, rfl, (hchain last hlast).1⟩
  · cases he : g.fresh.deriveAll [.subset none 2 1] with
    | error e => exact ⟨e, rfl, hrefused e he⟩
    | ok last =>
        have hfails : (g.fresh.deriveAll [.subset none 2 1]).isOk = false := by decide +kernel
        rw [he] at hfails
        cases hfails

end CachedGrid

end TiePoints
