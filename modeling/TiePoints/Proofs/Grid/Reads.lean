import TiePoints.Double.Scalar
import TiePoints.Proofs.Checked.Samples
import TiePoints.Proofs.Grid.Rectangles

/-!
# Reads of rectangles

A rectangle is read if it lies in the grid and refused otherwise.  Its ends are
sums of words, and a sum that is no word must not come out small: it counts as
an end behind every bound.  What is read is laid out row by row again, so it can
be read in turn, and a rectangle read out of a rectangle is the same as one read
out of the grid.
-/

namespace TiePoints

namespace Region

variable {r part : Region} {width height : Nat}

/-- A part of a rectangle, with its place counted from the origin of the whole. -/
def within (part r : Region) : Region := ⟨r.x + part.x, r.y + part.y, part.width, part.height⟩

theorem FitsIn.within (hpart : part.FitsIn r.width r.height) (hr : r.FitsIn width height) :
    (part.within r).FitsIn width height := by
  simp only [FitsIn, Region.within] at *
  omega

end Region

variable {α : Type} [Scalar α]

namespace Grid

/-- The table of the values read of a rectangle. -/
def cutout (g : Grid α) (r : Region) (values : Array α) : Grid α :=
  { g.component values with
    geometry :=
      ⟨{ g.geometry.x with points := r.width }, { g.geometry.y with points := r.height }⟩ }

namespace Consistent

variable {g : Grid α} {r part : Region} {values : Array α}

theorem tabular_cutout (h : g.Consistent) (hread : g.read r = .ok values) :
    (g.cutout r values).Tabular := by
  obtain ⟨hx, hy⟩ := fitsIn_of_read hread
  have hsize := h.size_read hread
  have hlt : r.width * r.height < Index.limit := by
    calc r.width * r.height ≤ g.width * g.height := Nat.mul_le_mul (by omega) (by omega)
      _ = g.samples.size := h.size_eq.symm
      _ < Index.limit := h.size_lt
  have hw := h.width_lt
  have hh := h.height_lt
  exact ⟨hsize, lt_of_eq_of_lt hsize hlt, show r.width < _ by omega, show r.height < _ by omega⟩

/-- A part of a rectangle that has been read is read out of the grid at once. -/
theorem read_cutout (h : g.Consistent) (hread : g.read r = .ok values)
    (hpart : part.FitsIn r.width r.height) :
    (g.cutout r values).read part = g.read (part.within r) := by
  have hwindow : (g.cutout r values).WindowOf g r.x r.y := h.windowOf_of_read hread rfl rfl
  rw [(h.tabular_cutout hread).read_eq hpart, h.read_eq (hpart.within (fitsIn_of_read hread))]
  congr 2
  apply List.map_congr_left
  intro p hp
  obtain ⟨hcol, hrow⟩ := rowMajor_place_lt (List.mem_range.mp hp)
  obtain ⟨hx, hy⟩ := hpart
  simp only [Region.within, Nat.add_assoc]
  exact hwindow.node_eq _ (by change _ < r.width; omega) _ (by change _ < r.height; omega)

theorem read_all (h : g.Consistent) : g.read ⟨0, 0, g.width, g.height⟩ = .ok g.samples := by
  rw [h.read_eq ⟨by simp, by simp⟩]
  congr 1
  apply Array.ext
  · simp [Region.count, h.size_eq]
  · intro p _ hp
    simp [node, Nat.mod_add_div', hp]

/-- A rectangle is read if its ends, as numbers, lie in the grid, and refused for its place
otherwise; the test on words comes to the same.  What is read are the samples of the rectangle, row
by row, and a part of it can as well be read out of the grid.  The full rectangle holds all samples
as they are, and no step on the way leaves the range of words or of the samples. -/
theorem read_iff_in_grid (h : g.Consistent) (r : Region) :
    ((∃ values, g.read r = .ok values) ↔
      r.x + r.width ≤ g.width ∧ r.y + r.height ≤ g.height) ∧
    (¬ (r.x + r.width ≤ g.width ∧ r.y + r.height ≤ g.height) →
      g.read r = .error (.geometry (.outsideGrid r g.width g.height))) ∧
    ((Index.exceeds r.x r.width g.width || Index.exceeds r.y r.height g.height) ↔
      ¬ (r.x + r.width ≤ g.width ∧ r.y + r.height ≤ g.height)) ∧
    (∀ values, g.read r = .ok values →
      values.size = r.width * r.height ∧
      (∀ row < r.height, ∀ col < r.width, ∃ v,
        g.sample (r.x + col) (r.y + row) = .ok v ∧ values[row * r.width + col]? = some v) ∧
      ∀ part : Region, part.FitsIn r.width r.height →
        (g.cutout r values).read part = g.read (part.within r)) ∧
    g.checkedRead r = Checked.ofResult (g.read r) ∧
    g.read ⟨0, 0, g.width, g.height⟩ = .ok g.samples := by
  refine ⟨⟨?_, ?_⟩, read_of_not_fitsIn, Region.exceeds_iff_not_fitsIn h.width_lt h.height_lt,
    ?_, h.checkedRead_eq r, h.read_all⟩
  · rintro ⟨values, hread⟩
    exact fitsIn_of_read hread
  · intro hr
    exact ⟨_, h.read_eq hr⟩
  · intro values hread
    obtain ⟨hw, hh⟩ := fitsIn_of_read hread
    refine ⟨h.size_read hread, ?_, fun part => h.read_cutout hread⟩
    intro row hrow col hcol
    refine ⟨_, h.sample_eq (by omega) (by omega), ?_⟩
    rw [Nat.add_comm]
    exact h.getElem?_read hread hrow hcol

/-- An empty rectangle at the far corner, one whose end is no word, and a column of one that
touches the far edges. -/
theorem read_iff_in_grid_at_far_edges :
    let g : Grid Float :=
      ⟨"altitude", none, none, ⟨⟨3, 0.5, 2⟩, ⟨2, 0.5, 2⟩⟩, #[1, 2, 3, 4, 5, 6], .none⟩
    (∃ values, g.read ⟨3, 2, 0, 0⟩ = .ok values) ∧
      g.read ⟨18446744073709551615, 0, 2, 1⟩ =
        .error (.geometry (.outsideGrid ⟨18446744073709551615, 0, 2, 1⟩ 3 2)) ∧
      ∃ values, g.read ⟨1, 0, 2, 2⟩ = .ok values ∧
        (g.cutout ⟨1, 0, 2, 2⟩ values).read ⟨1, 0, 1, 2⟩ = g.read ⟨2, 0, 1, 2⟩ := by
  intro g
  have h : g.Consistent := by decide +kernel
  obtain ⟨hcorner, -⟩ := h.read_iff_in_grid ⟨3, 2, 0, 0⟩
  obtain ⟨-, hrefused, -⟩ := h.read_iff_in_grid ⟨18446744073709551615, 0, 2, 1⟩
  obtain ⟨hgranted, -, -, hread, -⟩ := h.read_iff_in_grid ⟨1, 0, 2, 2⟩
  obtain ⟨values, hvalues⟩ := hgranted.mpr (by decide +kernel)
  refine ⟨hcorner.mpr (by decide +kernel), hrefused (by decide +kernel), values, hvalues, ?_⟩
  exact (hread values hvalues).2.2 ⟨1, 0, 1, 2⟩ (by decide)

end Consistent

end Grid

end TiePoints
