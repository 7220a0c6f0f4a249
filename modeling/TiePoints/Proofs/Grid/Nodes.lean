import TiePoints.Proofs.Grid.Corners

/-!
# Tie points of a consistent grid

In a consistent grid column `i` of row `j` has position `i + j * width`, which
is a position of the samples, and no sum or product on the way to it leaves the
words.  Mixing therefore never fails there, and its answer is the
mixture of the four tie points around the cell.
-/

namespace TiePoints

variable {α : Type} [Scalar α]

/-- Rows of a table lie one behind the other. -/
theorem rowMajor_lt {i j w h : Nat} (hi : i < w) (hj : j < h) : i + j * w < w * h := by
  have hnext : (j + 1) * w ≤ h * w := Nat.mul_le_mul_right w hj
  rw [Nat.succ_mul, Nat.mul_comm h] at hnext
  omega

theorem rowMajor_mod {i w : Nat} (hi : i < w) (j : Nat) : (i + j * w) % w = i := by
  rw [Nat.add_mul_mod_self_right, Nat.mod_eq_of_lt hi]

theorem rowMajor_div {i w : Nat} (hi : i < w) (j : Nat) : (i + j * w) / w = j := by
  rw [Nat.add_mul_div_right _ _ (Nat.zero_lt_of_lt hi), Nat.div_eq_of_lt hi, Nat.zero_add]

theorem rowMajor_place_lt {p w h : Nat} (hp : p < w * h) : p % w < w ∧ p / w < h :=
  ⟨Nat.mod_lt p (Nat.pos_of_mul_pos_right (Nat.zero_lt_of_lt hp)), Nat.div_lt_of_lt_mul hp⟩

/-- A table read row by row, by positions. -/
theorem flatMap_range_map {γ : Type} (w h : Nat) (f : Nat → Nat → γ) :
    ((List.range h).flatMap fun j => (List.range w).map fun i => f i j) =
      (List.range (w * h)).map fun p => f (p % w) (p / w) := by
  induction h with
  | zero => rfl
  | succ h ih =>
      rw [List.range_succ, List.flatMap_append, ih, Nat.mul_succ, List.range_add,
        List.map_append, List.flatMap_singleton, List.map_map]
      congr 1
      apply List.map_congr_left
      intro i hi
      have hi : i < w := List.mem_range.mp hi
      have hposition : w * h + i = i + h * w := by
        rw [Nat.add_comm, Nat.mul_comm]
      simp only [Function.comp_apply, hposition, rowMajor_mod hi, rowMajor_div hi]

instance (g : Geometry α) (n : Nat) : Decidable (g.Valid n) :=
  decidable_of_iff
    ((2 ≤ g.x.points ∧ 2 ≤ g.y.points) ∧ (n = g.sampleCount ∧ n < Index.limit) ∧
      (g.x.hasPositiveSpacing ∧ g.y.hasPositiveSpacing) ∧
      Scalar.isFinite g.x.offset ∧ Scalar.isFinite g.y.offset)
    ⟨fun ⟨⟨hw, hh⟩, ⟨hcount, hlt⟩, ⟨hx, hy⟩, hox, hoy⟩ => ⟨hw, hh, hcount, hlt, hx, hy, hox, hoy⟩,
      fun ⟨hw, hh, hcount, hlt, hx, hy, hox, hoy⟩ =>
        ⟨⟨hw, hh⟩, ⟨hcount, hlt⟩, ⟨hx, hy⟩, hox, hoy⟩⟩

namespace Grid

/-- The value of the tie point in column `i` of row `j`. -/
def node (g : Grid α) (i j : Nat) : α := g.samples[i + j * g.width]?.getD Scalar.zero

/-- A sample for each point, with sides and number that are words.  The table may have too few rows
or columns for a grid. -/
structure Tabular (g : Grid α) : Prop where
  size_eq : g.samples.size = g.width * g.height
  size_lt : g.samples.size < Index.limit
  width_lt : g.width < Index.limit
  height_lt : g.height < Index.limit

omit [Scalar α] in
theorem Tabular.index_lt {g : Grid α} (h : g.Tabular) {i j : Nat} (hi : i < g.width)
    (hj : j < g.height) : i + j * g.width < g.samples.size := by
  rw [h.size_eq]
  exact rowMajor_lt hi hj

namespace Consistent

variable {g : Grid α}

instance (g : Grid α) : Decidable g.Consistent :=
  decidable_of_iff (g.geometry.Valid g.samples.size) ⟨Consistent.mk, Consistent.valid⟩

theorem width_ge (h : g.Consistent) : 2 ≤ g.width := h.valid.width

theorem height_ge (h : g.Consistent) : 2 ≤ g.height := h.valid.height

theorem width_lt (h : g.Consistent) : g.width < Index.limit := by
  have hh := h.height_ge
  have hsize := h.size_lt
  rw [h.size_eq] at hsize
  exact Nat.lt_of_le_of_lt (Nat.le_mul_of_pos_right _ (by omega)) hsize

theorem height_lt (h : g.Consistent) : g.height < Index.limit := by
  have hw := h.width_ge
  have hsize := h.size_lt
  rw [h.size_eq] at hsize
  exact Nat.lt_of_le_of_lt (Nat.le_mul_of_pos_left _ (by omega)) hsize

theorem tabular (h : g.Consistent) : g.Tabular :=
  ⟨h.size_eq, h.size_lt, h.width_lt, h.height_lt⟩

theorem index_lt (h : g.Consistent) {i j : Nat} (hi : i < g.width) (hj : j < g.height) :
    i + j * g.width < g.samples.size :=
  h.tabular.index_lt hi hj

theorem node_mem (h : g.Consistent) {i j : Nat} (hi : i < g.width) (hj : j < g.height) :
    g.node i j ∈ g.samples := by
  have hlt := h.index_lt hi hj
  rw [node, Array.getElem?_eq_getElem hlt, Option.getD_some]
  exact Array.getElem_mem hlt

theorem sampleAt_eq (h : g.Consistent) {i j : Nat} (hi : i < g.width) (hj : j < g.height) :
    g.sampleAt (i + j * g.width) = .ok (g.node i j) := by
  have hlt := h.index_lt hi hj
  rw [sampleAt_eq_ok_iff, node, Array.getElem?_eq_getElem hlt, Option.getD_some]

theorem sample_eq (h : g.Consistent) {i j : Nat} (hi : i < g.width) (hj : j < g.height) :
    g.sample i j = .ok (g.node i j) :=
  sample_eq_ok.mpr ⟨Nat.lt_trans (h.index_lt hi hj) h.size_lt, h.sampleAt_eq hi hj⟩

theorem cornerSamples_eq (h : g.Consistent) {l : Lookup α} (hc : l.column.origin + 1 < g.width)
    (hr : l.row.origin + 1 < g.height) :
    g.cornerSamples l = .ok ⟨g.node l.column.origin l.row.origin,
      g.node (l.column.origin + 1) l.row.origin, g.node l.column.origin (l.row.origin + 1),
      g.node (l.column.origin + 1) (l.row.origin + 1)⟩ := by
  have hc' := Nat.lt_of_succ_lt hc
  have hr' := Nat.lt_of_succ_lt hr
  exact cornerSamples_eq_ok.mpr
    ⟨h.sample_eq hc' hr', h.sample_eq hc hr', h.sample_eq hc' hr, h.sample_eq hc hr⟩

/-- The mixture of the four tie points around a cell of the grid. -/
theorem mixAt_eq (h : g.Consistent) {l : Lookup α} (hc : l.column.origin + 1 < g.width)
    (hr : l.row.origin + 1 < g.height) :
    g.mixAt l = .ok (mix l.column.weight l.row.weight
      (g.node l.column.origin l.row.origin) (g.node (l.column.origin + 1) l.row.origin)
      (g.node l.column.origin (l.row.origin + 1))
      (g.node (l.column.origin + 1) (l.row.origin + 1))) := by
  rw [mixAt, h.cornerSamples_eq hc hr]
  rfl

theorem mixAtPlace_eq (h : g.Consistent) (x y : α) :
    g.mixAtPlace x y = .ok (mix (g.geometry.x.cell x).weight (g.geometry.y.cell y).weight
      (g.node (g.geometry.x.cell x).origin (g.geometry.y.cell y).origin)
      (g.node ((g.geometry.x.cell x).origin + 1) (g.geometry.y.cell y).origin)
      (g.node (g.geometry.x.cell x).origin ((g.geometry.y.cell y).origin + 1))
      (g.node ((g.geometry.x.cell x).origin + 1) ((g.geometry.y.cell y).origin + 1))) :=
  h.mixAt_eq (Axis.cell_origin_add_one_lt h.width_ge x)
    (Axis.cell_origin_add_one_lt h.height_ge y)

theorem exists_mixAtPlace (h : g.Consistent) (x y : α) : ∃ v, g.mixAtPlace x y = .ok v :=
  ⟨_, h.mixAtPlace_eq x y⟩

/-- Other samples in the same number make a consistent grid of the same place. -/
theorem component (h : g.Consistent) {samples : Array α} (hsize : samples.size = g.samples.size) :
    (g.component samples).Consistent where
  valid := by
    have hv := h.valid
    rwa [← hsize] at hv

theorem node_component_map (h : g.Consistent) {i j : Nat} (hi : i < g.width)
    (hj : j < g.height) (f : α → α) :
    (g.component (g.samples.map f)).node i j = f (g.node i j) := by
  have hsample := sample_component_map g f i j
  rw [h.sample_eq hi hj, (h.component (by simp)).sample_eq hi hj] at hsample
  exact Except.ok.inj hsample

/-- A grid whose samples are computed one by one mixes what is computed at the corners. -/
theorem mixAtPlace_component_map (h : g.Consistent) (f : α → α) (x y : α) :
    (g.component (g.samples.map f)).mixAtPlace x y =
      .ok (mix (g.geometry.x.cell x).weight (g.geometry.y.cell y).weight
        (f (g.node (g.geometry.x.cell x).origin (g.geometry.y.cell y).origin))
        (f (g.node ((g.geometry.x.cell x).origin + 1) (g.geometry.y.cell y).origin))
        (f (g.node (g.geometry.x.cell x).origin ((g.geometry.y.cell y).origin + 1)))
        (f (g.node ((g.geometry.x.cell x).origin + 1) ((g.geometry.y.cell y).origin + 1)))) := by
  have hlookup : (g.component (g.samples.map f)).mixAtPlace x y =
      (g.component (g.samples.map f)).mixAt (g.geometry.lookup x y) := rfl
  rw [hlookup, mixAt_component_map,
    h.cornerSamples_eq (Axis.cell_origin_add_one_lt h.width_ge x)
      (Axis.cell_origin_add_one_lt h.height_ge y)]
  rfl

theorem components [Circular α] (h : g.Consistent) :
    g.components.sin.Consistent ∧ g.components.cos.Consistent :=
  ⟨h.component (by simp), h.component (by simp)⟩

theorem exists_components_mixAtPlace [Circular α] (h : g.Consistent) (d : Discontinuity)
    (x y : α) : ∃ v, g.components.mixAtPlace d x y = .ok v := by
  obtain ⟨s, hs⟩ := h.components.1.exists_mixAtPlace x y
  obtain ⟨c, hc⟩ := h.components.2.exists_mixAtPlace x y
  refine ⟨d.combine s c, ?_⟩
  simp only [Components.mixAtPlace, hs, hc]
  rfl

end Consistent

end Grid

end TiePoints
