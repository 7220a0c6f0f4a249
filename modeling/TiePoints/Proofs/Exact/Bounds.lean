import Mathlib.Data.Rat.Floor
import Mathlib.Data.Set.Finite.List
import Mathlib.Order.Bounds.Basic
import TiePoints.Proofs.Checked.Derivations
import TiePoints.Proofs.Exact.Cell
import TiePoints.Proofs.Scene.Chunks

/-!
# Bounds of bilinear values

A plain grid answers at each place with a mean of the four samples around it, so
the answer lies between the least and the greatest of them.  No pixel of a
buffer, of a block or of a scene therefore leaves the range of the samples of
the grid, and none of a subset does either, since a subset holds no samples but
those of its source.
-/

namespace TiePoints

section Shown

variable {α : Type} [Scalar α] [Circular α] [Decomposition α]

/-- All bilinear values that a grid shows lie in the set. -/
structure Grid.ValuesIn (g : Grid α) (s : Set α) : Prop where
  valueAt : ∀ x y v, g.sampler.valueAt x y = .ok v → v ∈ s
  fill : ∀ (r : Region) (buffer : Array α),
    (g.sampler.fill .bilinear r buffer).outcome = .ok () →
      ∀ p < r.count, ∃ v ∈ s, (g.sampler.fill .bilinear r buffer).buffer[p]? = some v
  block : ∀ r raster, g.sampler.block .bilinear r = .ok raster → ∀ v ∈ raster.values, v ∈ s
  scene : ∀ (o : SceneOptions) raster, o.mode = .bilinear → g.sampler.scene o = .ok raster →
    ∀ v ∈ raster.values, v ∈ s

theorem Grid.ValuesIn.of_valueAt {g : Grid α} {s : Set α}
    (h : ∀ x y v, g.sampler.valueAt x y = .ok v → v ∈ s) : g.ValuesIn s := by
  have hblock : ∀ r raster, g.sampler.block .bilinear r = .ok raster →
      ∀ v ∈ raster.values, v ∈ s := by
    intro r raster hraster v hv
    obtain ⟨px, py, hpixel⟩ := Sampler.exists_pixel_of_mem_block hraster hv
    exact h _ _ v hpixel
  refine ⟨h, ?_, hblock, ?_⟩
  · intro r buffer hok p hp
    obtain ⟨v, hv, hget⟩ := (Sampler.shows_fill hok).position hp
    exact ⟨v, h _ _ v hv, hget⟩
  · rintro ⟨-, chunkRows⟩ raster rfl hraster
    exact hblock _ raster hraster

end Shown

namespace Exact

variable {K : Type} [Field K] [LinearOrder K] [FloorRing K] {g : Grid K}

theorem exists_isLeast_isGreatest_samples (h : g.Consistent) :
    ∃ least greatest, IsLeast {a | a ∈ g.samples} least ∧
      IsGreatest {a | a ∈ g.samples} greatest := by
  have hfinite : {a | a ∈ g.samples}.Finite := by
    simpa using g.samples.toList.finite_toSet
  have hnonempty : {a | a ∈ g.samples}.Nonempty :=
    ⟨g.node 0 0, h.node_mem (by have := h.width_ge; omega) (by have := h.height_ge; omega)⟩
  obtain ⟨least, hleast, hlow⟩ := Set.exists_min_image _ id hfinite hnonempty
  obtain ⟨greatest, hgreatest, hhigh⟩ := Set.exists_max_image _ id hfinite hnonempty
  exact ⟨least, greatest, ⟨hleast, fun a ha => hlow a ha⟩, ⟨hgreatest, fun a ha => hhigh a ha⟩⟩

variable [IsStrictOrderedRing K] [Circular K] [Decomposition K]

theorem valuesIn_of_samples {lo hi : K} (h : g.Consistent) (hd : g.discontinuity = .none)
    (hsamples : ∀ a ∈ g.samples, a ∈ Set.Icc lo hi) : g.ValuesIn (Set.Icc lo hi) := by
  apply Grid.ValuesIn.of_valueAt
  intro x y v hv
  have hi := Axis.cell_origin_add_one_lt h.width_ge x
  have hj := Axis.cell_origin_add_one_lt h.height_ge y
  rw [Grid.valueAt_of_plain hd, h.mixAtPlace_eq] at hv
  rw [← Except.ok.inj hv]
  apply mix_mem_Icc (cell_weight_mem h.width_ge h.width_lt x)
    (cell_weight_mem h.height_ge h.height_lt y)
  · exact hsamples _ (h.node_mem (Nat.lt_of_succ_lt hi) (Nat.lt_of_succ_lt hj))
  · exact hsamples _ (h.node_mem hi (Nat.lt_of_succ_lt hj))
  · exact hsamples _ (h.node_mem (Nat.lt_of_succ_lt hi) hj)
  · exact hsamples _ (h.node_mem hi hj)

/-- The value at a place lies between the least and the greatest of the four samples that its
lookup names.  All values that a grid or a subset of it shows lie between the least and the
greatest sample of the grid. -/
theorem valueAt_between_corners (h : g.Consistent) (hd : g.discontinuity = .none) :
    (∀ x y : K,
      let l := g.geometry.lookup x y
      ∃ v00 v10 v01 v11 v,
        g.sample l.column.origin l.row.origin = .ok v00 ∧
        g.sample (l.column.origin + 1) l.row.origin = .ok v10 ∧
        g.sample l.column.origin (l.row.origin + 1) = .ok v01 ∧
        g.sample (l.column.origin + 1) (l.row.origin + 1) = .ok v11 ∧
        g.sampler.valueAt x y = .ok v ∧
        v ∈ Set.Icc (min (min v00 v10) (min v01 v11)) (max (max v00 v10) (max v01 v11))) ∧
    ∃ least greatest, IsLeast {a | a ∈ g.samples} least ∧
      IsGreatest {a | a ∈ g.samples} greatest ∧
      g.ValuesIn (Set.Icc least greatest) ∧
      ∀ region stepX stepY sub, g.subset region stepX stepY = .ok sub →
        sub.ValuesIn (Set.Icc least greatest) := by
  constructor
  · intro x y l
    have hi : l.column.origin + 1 < g.width := Axis.cell_origin_add_one_lt h.width_ge x
    have hj : l.row.origin + 1 < g.height := Axis.cell_origin_add_one_lt h.height_ge y
    refine ⟨_, _, _, _, _, h.sample_eq (Nat.lt_of_succ_lt hi) (Nat.lt_of_succ_lt hj),
      h.sample_eq hi (Nat.lt_of_succ_lt hj), h.sample_eq (Nat.lt_of_succ_lt hi) hj,
      h.sample_eq hi hj, (Grid.valueAt_of_plain hd x y).trans (h.mixAtPlace_eq x y), ?_⟩
    exact mix_mem_Icc_corners (cell_weight_mem h.width_ge h.width_lt x)
      (cell_weight_mem h.height_ge h.height_lt y) _ _ _ _
  · obtain ⟨least, greatest, hleast, hgreatest⟩ := exists_isLeast_isGreatest_samples h
    refine ⟨least, greatest, hleast, hgreatest, ?_, ?_⟩
    · exact valuesIn_of_samples h hd fun a ha => ⟨hleast.2 ha, hgreatest.2 ha⟩
    · intro region stepX stepY sub hsub
      apply valuesIn_of_samples (h.subset hsub) ((h.discontinuity_of_subset hsub).trans hd)
      intro a ha
      have ha' := h.mem_samples_of_subset hsub ha
      exact ⟨hleast.2 ha', hgreatest.2 ha'⟩

/-- A place in the last cells of both axes, and a subset of every second column that reaches out
of the scene. -/
theorem valueAt_between_corners_of_last_cell :
    let _ : Circular ℚ := ⟨3, id, id, fun y _ => y⟩
    let _ : Decomposition ℚ := ⟨fun _ => 0, fun _ _ => 0, fun _ => none⟩
    let g : Grid ℚ := ⟨"pressure", none, none, ⟨⟨3, 1 / 2, 2⟩, ⟨2, 1 / 2, 2⟩⟩,
      #[1, 2, 4, 8, 16, 32], .none⟩
    (∃ v, g.sampler.valueAt (7 / 2) 1 = .ok v ∧ v ∈ Set.Icc 2 32) ∧
      ∀ sub, g.subset (some ⟨1, 0, 9, 2⟩) 2 1 = .ok sub →
        ∀ r raster, sub.sampler.block .bilinear r = .ok raster →
          ∀ v ∈ raster.values, v ∈ Set.Icc 1 32 := by
  intro _ _ g
  have h : g.Consistent := by decide +kernel
  obtain ⟨hcorners, least, greatest, hleast, hgreatest, -, hsubset⟩ :=
    valueAt_between_corners h rfl
  constructor
  · obtain ⟨v00, v10, v01, v11, v, h00, h10, h01, h11, hv, hbounds⟩ := hcorners (7 / 2) 1
    obtain rfl : (2 : ℚ) = v00 := Except.ok.inj (.trans (by decide +kernel) h00)
    obtain rfl : (4 : ℚ) = v10 := Except.ok.inj (.trans (by decide +kernel) h10)
    obtain rfl : (16 : ℚ) = v01 := Except.ok.inj (.trans (by decide +kernel) h01)
    obtain rfl : (32 : ℚ) = v11 := Except.ok.inj (.trans (by decide +kernel) h11)
    refine ⟨v, hv, ?_⟩
    norm_num at hbounds
    exact hbounds
  · obtain rfl : least = 1 :=
      hleast.unique ⟨by decide +kernel, (by decide +kernel : ∀ a ∈ g.samples, 1 ≤ a)⟩
    obtain rfl : greatest = 32 :=
      hgreatest.unique ⟨by decide +kernel, (by decide +kernel : ∀ a ∈ g.samples, a ≤ 32)⟩
    intro sub hsub
    exact (hsubset _ 2 1 sub hsub).block

end Exact

end TiePoints
