import TiePoints.Grid.Derived
import TiePoints.Proofs.Grid.Admission
import TiePoints.Proofs.Result

/-!
# Rectangles of tie points

A rectangle that fits into a table with a sample for each point is read without
failure, and what is read are its points row by row.  A grid of such a rectangle,
placed over the same part of the scene, answers as the grid that it was cut from:
the four corners of a cell are the same in both.  A subset is such a grid if it
comes about, and it does as long as its placement is sound.
-/

namespace TiePoints

variable {α : Type} [Scalar α]

/-! ## Ends of a rectangle -/

namespace Region

variable {r : Region} {width height : Nat}

theorem fitsIn_of_not_exceeds
    (h : ¬ (Index.exceeds r.x r.width width || Index.exceeds r.y r.height height)) :
    r.FitsIn width height := by
  rw [Bool.or_eq_true, not_or, Index.not_exceeds_iff, Index.not_exceeds_iff] at h
  exact ⟨h.1.1, h.2.1⟩

/-- The test on words comes to the test on numbers. -/
theorem exceeds_iff_not_fitsIn (hw : width < Index.limit) (hh : height < Index.limit) :
    (Index.exceeds r.x r.width width || Index.exceeds r.y r.height height) ↔
      ¬ r.FitsIn width height := by
  constructor
  · intro h hr
    obtain ⟨hx, hy⟩ := hr
    rw [Bool.or_eq_true] at h
    rcases h with h | h
    · exact Index.not_exceeds_iff.mpr ⟨hx, by omega⟩ h
    · exact Index.not_exceeds_iff.mpr ⟨hy, by omega⟩ h
  · exact fun h => Decidable.not_not.mp (mt fitsIn_of_not_exceeds h)

end Region

namespace Grid

/-! ## Reads -/

namespace Tabular

variable {g : Grid α}

theorem slice_eq (h : g.Tabular) {x y width : Nat} (hx : x + width ≤ g.width)
    (hy : y < g.height) :
    g.slice (y * g.width + x) width =
      .ok ((List.range width).map fun i => g.node (x + i) y) := by
  have hnext : (y + 1) * g.width = y * g.width + g.width := Nat.succ_mul _ _
  have hend : (y + 1) * g.width ≤ g.samples.size := by
    rw [h.size_eq, Nat.mul_comm g.width]
    exact Nat.mul_le_mul_right _ hy
  have hsize := h.size_lt
  rw [slice, Index.add_eq_of_lt (by omega)]
  simp only [bind, Except.bind]
  rw [if_pos (by omega)]
  congr 1
  apply List.ext_getElem
  · simp
    omega
  · intro i hi hi'
    have hiw : i < width := by simpa using hi'
    have hlt : x + i + y * g.width < g.samples.size := h.index_lt (by omega) hy
    have hplace : y * g.width + x + i = x + i + y * g.width := by omega
    simp [node, Array.getElem?_eq_getElem hlt, hplace]

theorem readRows_eq (h : g.Tabular) {x y width rows : Nat} (hx : x + width ≤ g.width)
    (hy : y + rows ≤ g.height) :
    g.readRows x width y rows =
      .ok ((List.range rows).flatMap fun j => (List.range width).map fun i =>
        g.node (x + i) (y + j)) := by
  induction rows generalizing y with
  | zero => rfl
  | succ rows ih =>
      have hend : (y + 1) * g.width ≤ g.width * g.height := by
        rw [Nat.mul_comm g.width]
        exact Nat.mul_le_mul_right _ (by omega)
      rw [Nat.succ_mul, ← h.size_eq] at hend
      have hsize := h.size_lt
      rw [readRows, Index.mul_eq_of_lt (by omega)]
      simp only [bind, Except.bind]
      rw [Index.add_eq_of_lt (by omega)]
      simp only [h.slice_eq hx (show y < g.height by omega), ih (y := y + 1) (by omega)]
      rw [List.range_succ_eq_map, List.flatMap_cons, List.flatMap_map]
      simp only [Nat.add_zero, Nat.add_succ, Nat.succ_add]
      rfl

theorem read_eq (h : g.Tabular) {r : Region} (hr : r.FitsIn g.width g.height) :
    g.read r = .ok ((List.range r.count).map fun p =>
      g.node (r.x + p % r.width) (r.y + p / r.width)).toArray := by
  have hinside : ¬ (Index.exceeds r.x r.width g.width || Index.exceeds r.y r.height g.height) := by
    rw [Region.exceeds_iff_not_fitsIn h.width_lt h.height_lt, Decidable.not_not]
    exact hr
  obtain ⟨hx, hy⟩ := hr
  have hcount : r.width * r.height ≤ g.width * g.height :=
    Nat.mul_le_mul (by omega) (by omega)
  have hsize := h.size_lt
  have hheight := h.height_lt
  rw [h.size_eq] at hsize
  rw [read, if_neg hinside, Index.mul_eq_of_lt (by omega)]
  simp only [bind, Except.bind]
  rw [Index.add_eq_of_lt (by omega)]
  simp only [h.readRows_eq hx hy,
    flatMap_range_map r.width r.height fun i j => g.node (r.x + i) (r.y + j)]
  rfl

end Tabular

section

omit [Scalar α]

variable {g : Grid α} {r : Region}

theorem read_of_not_fitsIn (hr : ¬ r.FitsIn g.width g.height) :
    g.read r = .error (.geometry (.outsideGrid r g.width g.height)) :=
  if_pos (Decidable.not_not.mp (mt Region.fitsIn_of_not_exceeds hr))

theorem fitsIn_of_read {values : Array α} (hread : g.read r = .ok values) :
    r.FitsIn g.width g.height := by
  refine Decidable.byContradiction fun hr => ?_
  rw [read_of_not_fitsIn hr] at hread
  cases hread

end

namespace Consistent

variable {g : Grid α} {r : Region} {values : Array α}

theorem read_eq (h : g.Consistent) (hr : r.FitsIn g.width g.height) :
    g.read r = .ok ((List.range r.count).map fun p =>
      g.node (r.x + p % r.width) (r.y + p / r.width)).toArray :=
  h.tabular.read_eq hr

theorem size_read (h : g.Consistent) (hread : g.read r = .ok values) : values.size = r.count := by
  rw [h.read_eq (fitsIn_of_read hread)] at hread
  rw [← Except.ok.inj hread]
  simp

theorem getElem?_read (h : g.Consistent) (hread : g.read r = .ok values) {row col : Nat}
    (hrow : row < r.height) (hcol : col < r.width) :
    values[col + row * r.width]? = some (g.node (r.x + col) (r.y + row)) := by
  have hlt : col + row * r.width < r.count := rowMajor_lt hcol hrow
  rw [h.read_eq (fitsIn_of_read hread)] at hread
  rw [← Except.ok.inj hread]
  simp [hlt, rowMajor_mod hcol, rowMajor_div hcol]

theorem mem_samples_of_read (h : g.Consistent) (hread : g.read r = .ok values) {v : α}
    (hv : v ∈ values) : v ∈ g.samples := by
  obtain ⟨hw, hh⟩ := fitsIn_of_read hread
  rw [h.read_eq (fitsIn_of_read hread)] at hread
  rw [← Except.ok.inj hread, List.mem_toArray] at hv
  obtain ⟨p, hp, rfl⟩ := List.mem_map.mp hv
  obtain ⟨hcol, hrow⟩ := rowMajor_place_lt (List.mem_range.mp hp)
  exact h.node_mem (by omega) (by omega)

end Consistent

/-! ## Windows of a grid -/

/-- `sub` is the rectangle of the points of `g` from column `x` and row `y` on. -/
structure WindowOf (sub g : Grid α) (x y : Nat) : Prop where
  width_le : x + sub.width ≤ g.width
  height_le : y + sub.height ≤ g.height
  node_eq : ∀ i < sub.width, ∀ j < sub.height, sub.node i j = g.node (x + i) (y + j)

/-- What is read of a rectangle makes a window of the grid. -/
theorem Consistent.windowOf_of_read {sub g : Grid α} (h : g.Consistent) {r : Region}
    (hread : g.read r = .ok sub.samples) (hw : sub.width = r.width)
    (hh : sub.height = r.height) : sub.WindowOf g r.x r.y where
  width_le := hw ▸ (fitsIn_of_read hread).1
  height_le := hh ▸ (fitsIn_of_read hread).2
  node_eq := by
    intro i hi j hj
    rw [hw] at hi
    rw [hh] at hj
    rw [node, hw, h.getElem?_read hread hj hi, Option.getD_some]

namespace WindowOf

variable {sub g : Grid α} {x y : Nat}

/-- A map of the samples keeps windows. -/
theorem map (hwin : sub.WindowOf g x y) (hsub : sub.Consistent) (hg : g.Consistent) (f : α → α) :
    (sub.component (sub.samples.map f)).WindowOf (g.component (g.samples.map f)) x y where
  width_le := hwin.width_le
  height_le := hwin.height_le
  node_eq := by
    intro i hi j hj
    have hi : i < sub.width := hi
    have hj : j < sub.height := hj
    have hw := hwin.width_le
    have hh := hwin.height_le
    rw [hsub.node_component_map hi hj, hg.node_component_map (by omega) (by omega),
      hwin.node_eq i hi j hj]

/-- Lookups that name the same cell and weights mix the same four points. -/
theorem mixAtPlace_eq (hwin : sub.WindowOf g x y) (hsub : sub.Consistent) (hg : g.Consistent)
    {u v s t : α}
    (hcolumn : g.geometry.x.cell s =
      ⟨x + (sub.geometry.x.cell u).origin, (sub.geometry.x.cell u).weight⟩)
    (hrow : g.geometry.y.cell t =
      ⟨y + (sub.geometry.y.cell v).origin, (sub.geometry.y.cell v).weight⟩) :
    sub.mixAtPlace u v = g.mixAtPlace s t := by
  have hi : (sub.geometry.x.cell u).origin + 1 < sub.width :=
    Axis.cell_origin_add_one_lt hsub.width_ge u
  have hj : (sub.geometry.y.cell v).origin + 1 < sub.height :=
    Axis.cell_origin_add_one_lt hsub.height_ge v
  rw [hsub.mixAtPlace_eq, hg.mixAtPlace_eq, hcolumn, hrow]
  simp only [Nat.add_assoc]
  rw [hwin.node_eq _ (by omega) _ (by omega), hwin.node_eq _ hi _ (by omega),
    hwin.node_eq _ (by omega) _ hj, hwin.node_eq _ hi _ hj]

theorem components_mixAtPlace_eq [Circular α] (hwin : sub.WindowOf g x y) (hsub : sub.Consistent)
    (hg : g.Consistent) (d : Discontinuity) {u v s t : α}
    (hcolumn : g.geometry.x.cell s =
      ⟨x + (sub.geometry.x.cell u).origin, (sub.geometry.x.cell u).weight⟩)
    (hrow : g.geometry.y.cell t =
      ⟨y + (sub.geometry.y.cell v).origin, (sub.geometry.y.cell v).weight⟩) :
    sub.components.mixAtPlace d u v = g.components.mixAtPlace d s t := by
  have hsin : sub.components.sin.mixAtPlace u v = g.components.sin.mixAtPlace s t :=
    (hwin.map hsub hg _).mixAtPlace_eq hsub.components.1 hg.components.1 hcolumn hrow
  have hcos : sub.components.cos.mixAtPlace u v = g.components.cos.mixAtPlace s t :=
    (hwin.map hsub hg _).mixAtPlace_eq hsub.components.2 hg.components.2 hcolumn hrow
  rw [Components.mixAtPlace, hsin, hcos]
  rfl

end WindowOf

end Grid

/-! ## Subsets -/

namespace Geometry

/-- The placement of a subset. -/
def subset (g : Geometry α) (r : Region) (stepX stepY : Nat) : Geometry α :=
  ⟨g.x.subset r.x r.width stepX, g.y.subset r.y r.height stepY⟩

/-- The rectangle of the tie points that a subset keeps. -/
def kept (g : Geometry α) (r : Region) (stepX stepY : Nat) : Region :=
  ⟨(g.x.subsetWindow r.x r.width stepX).first, (g.y.subsetWindow r.y r.height stepY).first,
    (g.x.subsetWindow r.x r.width stepX).count, (g.y.subsetWindow r.y r.height stepY).count⟩

end Geometry

namespace Grid

variable {g : Grid α} {r : Region} {stepX stepY : Nat}

theorem Consistent.kept_fitsIn (h : g.Consistent) (r : Region) (stepX stepY : Nat) :
    (g.geometry.kept r stepX stepY).FitsIn g.width g.height :=
  ⟨Window.covering_end_le h.width_ge, Window.covering_end_le h.height_ge⟩

theorem Consistent.count_kept_lt (h : g.Consistent) (r : Region) (stepX stepY : Nat) :
    (g.geometry.kept r stepX stepY).count < Index.limit := by
  obtain ⟨hcolumns, hrows⟩ := h.kept_fitsIn r stepX stepY
  have hle : (g.geometry.kept r stepX stepY).count ≤ g.width * g.height :=
    Nat.mul_le_mul (by omega) (by omega)
  have hsize := h.size_lt
  rw [h.size_eq] at hsize
  omega

/-- The rectangle of the tie points that a subset keeps is always read. -/
theorem Consistent.exists_read_kept (h : g.Consistent) (r : Region) (stepX stepY : Nat) :
    ∃ samples, g.read (g.geometry.kept r stepX stepY) = .ok samples ∧
      samples.size = (g.geometry.kept r stepX stepY).count := by
  have hread := h.read_eq (h.kept_fitsIn r stepX stepY)
  exact ⟨_, hread, h.size_read hread⟩

/-- A subset is refused for its steps, then for its region, or it is built from what is kept. -/
theorem Consistent.subset_cases (h : g.Consistent) (region : Option Region) (stepX stepY : Nat) :
    let r := region.getD g.geometry.scene
    ((stepX = 0 ∨ stepY = 0) ∧
        g.subset region stepX stepY = .error (.geometry (.zeroStep stepX stepY))) ∨
      (¬ (stepX = 0 ∨ stepY = 0) ∧ r.isEmpty ∧
        g.subset region stepX stepY = .error (.geometry (.emptyRegion r.width r.height))) ∨
      (¬ (stepX = 0 ∨ stepY = 0) ∧ ¬ r.isEmpty ∧ ∃ samples,
        g.read (g.geometry.kept r stepX stepY) = .ok samples ∧
          samples.size = (g.geometry.kept r stepX stepY).count ∧
          g.subset region stepX stepY =
            (build g.name (g.geometry.subset r stepX stepY) samples g.discontinuity).map
              fun built => built.describedAs g) := by
  intro r
  by_cases hsteps : stepX = 0 ∨ stepY = 0
  · exact .inl ⟨hsteps, if_pos hsteps⟩
  by_cases hr : r.isEmpty
  · refine .inr (.inl ⟨hsteps, hr, ?_⟩)
    rw [subset, if_neg hsteps]
    exact if_pos hr
  · obtain ⟨samples, hread, hsize⟩ := h.exists_read_kept r stepX stepY
    refine .inr (.inr ⟨hsteps, hr, samples, hread, hsize, ?_⟩)
    simp only [Geometry.kept] at hread
    simp only [subset, if_neg hsteps,
      if_neg (show ¬ (region.getD g.geometry.scene).isEmpty from hr)]
    change (g.read _ >>= fun _ => _) = _
    rw [hread]
    change (build _ (g.geometry.subset r stepX stepY) _ _ >>= fun _ => _) = _
    cases build g.name (g.geometry.subset r stepX stepY) samples g.discontinuity <;> rfl

/-- A subset that comes about has been built from what is kept. -/
theorem Consistent.build_of_subset (h : g.Consistent) {region : Option Region} {sub : Grid α}
    (hsub : g.subset region stepX stepY = .ok sub) :
    let r := region.getD g.geometry.scene
    ∃ samples built, g.read (g.geometry.kept r stepX stepY) = .ok samples ∧
      build g.name (g.geometry.subset r stepX stepY) samples g.discontinuity = .ok built ∧
        sub = built.describedAs g := by
  obtain ⟨-, heq⟩ | ⟨-, -, heq⟩ | ⟨-, -, samples, hread, -, heq⟩ :=
    h.subset_cases region stepX stepY
  · rw [heq] at hsub
    cases hsub
  · rw [heq] at hsub
    cases hsub
  · rw [heq] at hsub
    obtain ⟨built, hbuilt, rfl⟩ := map_eq_ok.mp hsub
    exact ⟨samples, built, hread, hbuilt, rfl⟩

theorem Consistent.mem_samples_of_subset (h : g.Consistent) {region : Option Region} {sub : Grid α}
    (hsub : g.subset region stepX stepY = .ok sub) {v : α} (hv : v ∈ sub.samples) :
    v ∈ g.samples := by
  obtain ⟨samples, built, hread, hbuilt, rfl⟩ := h.build_of_subset hsub
  obtain ⟨-, rfl⟩ := build_eq_ok_iff.mp hbuilt
  exact h.mem_samples_of_read hread hv

theorem Consistent.discontinuity_of_subset (h : g.Consistent) {region : Option Region}
    {sub : Grid α} (hsub : g.subset region stepX stepY = .ok sub) :
    sub.discontinuity = g.discontinuity := by
  obtain ⟨samples, built, -, hbuilt, rfl⟩ := h.build_of_subset hsub
  obtain ⟨-, rfl⟩ := build_eq_ok_iff.mp hbuilt
  rfl

/-- A subset with a sound placement comes about as a window of its source. -/
theorem Consistent.exists_subset (h : g.Consistent) (hr : ¬ r.isEmpty) (hx : stepX ≠ 0)
    (hy : stepY ≠ 0) (hsound : (g.geometry.subset r stepX stepY).Sound) :
    ∃ sub, g.subset (some r) stepX stepY = .ok sub ∧ sub.Consistent ∧
      sub.discontinuity = g.discontinuity ∧ sub.geometry = g.geometry.subset r stepX stepY ∧
      sub.WindowOf g (g.geometry.kept r stepX stepY).x (g.geometry.kept r stepX stepY).y := by
  obtain ⟨hsteps, -⟩ | ⟨-, hempty, -⟩ | ⟨-, -, samples, hread, hsize, heq⟩ :=
    h.subset_cases (some r) stepX stepY
  · exact (hsteps.elim hx hy).elim
  · exact absurd hempty hr
  · have hlimit := h.count_kept_lt r stepX stepY
    have hvalid : (g.geometry.subset r stepX stepY).Valid samples.size :=
      Geometry.valid_iff.mpr ⟨hsound, hsize, lt_of_eq_of_lt hsize hlimit⟩
    refine ⟨_, heq.trans (map_eq_ok.mpr ⟨_, build_eq_ok_iff.mpr ⟨hvalid, rfl⟩, rfl⟩),
      ⟨hvalid⟩, rfl, rfl, ?_⟩
    exact h.windowOf_of_read hread rfl rfl

end Grid

end TiePoints
