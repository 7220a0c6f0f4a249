import TiePoints.Proofs.Checked.Queries
import TiePoints.Proofs.Grid.Rectangles

/-!
# Samples in checked steps

On a consistent grid the corners of every cell, the tie points of every
rectangle and the values of every fit are found without a step out of range, so
what is computed of them in checked steps is what is computed without checks.
All positions are bounded by that of the last corner or of the end of a row.
-/

namespace TiePoints

open Checked

variable {α : Type} [Scalar α]

namespace Axis

theorem checkedCell_eq {a : Axis α} (h : 2 ≤ a.points) (s : α) :
    a.checkedCell s = .ok (a.cell s) := by
  have hlast : (sub a.points 1 : Checked α Nat) = .ok (a.points - 1) := sub_eq (by omega)
  have hbefore : (sub a.points 2 : Checked α Nat) = .ok (a.points - 2) := sub_eq h
  simp only [checkedCell, hlast, hbefore]
  rfl

theorem checkedPointBefore_eq {a : Axis α} (h : 0 < a.points) (s : α) :
    a.checkedPointBefore s = .ok (a.pointBefore s) := by
  have hlast : (sub a.points 1 : Checked α Nat) = .ok (a.points - 1) := sub_eq h
  simp only [checkedPointBefore, hlast]
  rfl

end Axis

theorem Geometry.checkedLookup_eq {g : Geometry α} (hx : 2 ≤ g.x.points) (hy : 2 ≤ g.y.points)
    (x y : α) : g.checkedLookup x y = .ok (g.lookup x y) := by
  simp only [checkedLookup, Axis.checkedCell_eq hx, Axis.checkedCell_eq hy]
  rfl

namespace Grid.Consistent

variable {g : Grid α}

/-! ## Samples -/

theorem get_node (h : g.Consistent) {i j : Nat} (hi : i < g.width) (hj : j < g.height) :
    (get g.samples (i + j * g.width) : Checked α α) = .ok (g.node i j) :=
  get_eq (sampleAt_eq_ok_iff.mp (h.sampleAt_eq hi hj))

theorem checkedMixAt_eq (h : g.Consistent) {l : Lookup α} (hc : l.column.origin + 1 < g.width)
    (hr : l.row.origin + 1 < g.height) : g.checkedMixAt l = ofResult (g.mixAt l) := by
  rw [h.mixAt_eq hc hr]
  obtain ⟨⟨i, wi⟩, ⟨j, wj⟩⟩ := l
  simp only at hc hr ⊢
  have hlast : (i + 1) + (j + 1) * g.width < g.samples.size := h.index_lt hc hr
  have hnext : (j + 1) * g.width = j * g.width + g.width := Nat.succ_mul _ _
  have hsize := h.size_lt
  have hrow0 : (mul j g.width : Checked α Nat) = .ok (j * g.width) := mul_eq (by omega)
  have hrow1 : (add (j * g.width) g.width : Checked α Nat) = .ok (j * g.width + g.width) :=
    add_eq (by omega)
  have hupper : (add (j * g.width) i : Checked α Nat) = .ok (i + j * g.width) := by
    rw [add_eq (by omega), Nat.add_comm]
  have hupper' : (add (i + j * g.width) 1 : Checked α Nat) = .ok (i + 1 + j * g.width) := by
    rw [add_eq (by omega), Nat.add_right_comm]
  have hlower : (add (j * g.width + g.width) i : Checked α Nat) =
      .ok (i + (j + 1) * g.width) := by
    rw [add_eq (by omega), hnext, Nat.add_comm]
  have hlower' : (add (i + (j + 1) * g.width) 1 : Checked α Nat) =
      .ok (i + 1 + (j + 1) * g.width) := by
    rw [add_eq (by omega), Nat.add_right_comm]
  simp only [checkedMixAt, bind, Except.bind, hrow0, hrow1, hupper, hupper', hlower, hlower']
  rw [h.get_node (by omega) (by omega), h.get_node hc (by omega), h.get_node (by omega) hr,
    h.get_node hc hr]
  rfl

theorem checkedMixAtPlace_eq (h : g.Consistent) (x y : α) :
    g.checkedMixAtPlace x y = ofResult (g.mixAtPlace x y) := by
  rw [checkedMixAtPlace, Geometry.checkedLookup_eq h.width_ge h.height_ge]
  exact h.checkedMixAt_eq (Axis.cell_origin_add_one_lt h.width_ge x)
    (Axis.cell_origin_add_one_lt h.height_ge y)

theorem checkedSample_eq (h : g.Consistent) {i j : Nat} (hi : i < g.width) (hj : j < g.height) :
    g.checkedSample i j = ofResult (g.sample i j) := by
  have hlt := h.index_lt hi hj
  have hsize := h.size_lt
  have hrow : (mul j g.width : Checked α Nat) = .ok (j * g.width) := mul_eq (by omega)
  have hposition : (add i (j * g.width) : Checked α Nat) = .ok (i + j * g.width) :=
    add_eq (by omega)
  rw [h.sample_eq hi hj]
  simp only [checkedSample, bind, Except.bind, hrow, hposition]
  exact h.get_node hi hj

theorem checkedReadRows_eq (h : g.Consistent) {x y width rows : Nat} (hx : x + width ≤ g.width)
    (hy : y + rows ≤ g.height) :
    g.checkedReadRows x width y rows = ofResult (g.readRows x width y rows) := by
  induction rows generalizing y with
  | zero => rfl
  | succ rows ih =>
      have hend : (y + 1) * g.width ≤ g.samples.size := by
        rw [h.size_eq, Nat.mul_comm g.width]
        exact Nat.mul_le_mul_right _ (by omega)
      rw [Nat.succ_mul] at hend
      have hsize := h.size_lt
      have hrow : (mul y g.width : Checked α Nat) = .ok (y * g.width) := mul_eq (by omega)
      have hstart : (add (y * g.width) x : Checked α Nat) = .ok (y * g.width + x) :=
        add_eq (by omega)
      have hstop : (add (y * g.width + x) width : Checked α Nat) =
          .ok (y * g.width + x + width) := add_eq (by omega)
      have hrow' : (Index.mul y g.width : Except (Error α) Nat) = .ok (y * g.width) :=
        Index.mul_eq_of_lt (by omega)
      have hstart' : (Index.add (y * g.width) x : Except (Error α) Nat) = .ok (y * g.width + x) :=
        Index.add_eq_of_lt (by omega)
      have hstop' : (Index.add (y * g.width + x) width : Except (Error α) Nat) =
          .ok (y * g.width + x + width) := Index.add_eq_of_lt (by omega)
      have hinside : y * g.width + x + width ≤ g.samples.size := by omega
      simp only [checkedReadRows, readRows, Grid.slice, bind, Except.bind, hrow, hstart, hstop,
        hrow', hstart', hstop', if_pos hinside, ih (show y + 1 + rows ≤ g.height by omega)]
      rw [Checked.slice_eq (by omega) hinside]
      cases g.readRows x width (y + 1) rows <;> rfl

theorem checkedRead_eq (h : g.Consistent) (r : Region) :
    g.checkedRead r = ofResult (g.read r) := by
  unfold checkedRead read
  by_cases hr : Index.exceeds r.x r.width g.width || Index.exceeds r.y r.height g.height
  · rw [if_pos hr, if_pos hr]
    rfl
  · obtain ⟨hx, hy⟩ := Region.fitsIn_of_not_exceeds hr
    have hcount : r.width * r.height ≤ g.width * g.height :=
      Nat.mul_le_mul (by omega) (by omega)
    have hsize := h.size_lt
    have hheight := h.height_lt
    rw [h.size_eq] at hsize
    rw [if_neg hr, if_neg hr, mul_eq (by omega), add_eq (by omega),
      Index.mul_eq_of_lt (by omega), Index.add_eq_of_lt (by omega)]
    simp only [bind, Except.bind, h.checkedReadRows_eq hx hy]
    cases g.readRows r.x r.width r.y r.height <;> rfl

/-! ## Fits -/

section Fits

variable [Decomposition α]

theorem checkedFitRow_eq (h : g.Consistent) {r : Nat} (hr : r < g.height) :
    g.checkedFitRow r = ofResult (g.fitRow r) := by
  have hvalues : (List.range g.width).mapM (fun c => g.checkedSample c r) =
      ofResult (g.rowSamples r) :=
    mapM_eq fun c hc => h.checkedSample_eq (List.mem_range.mp hc) hr
  simp only [checkedFitRow, fitRow, hvalues]
  cases g.rowSamples r with
  | error e => rfl
  | ok values =>
      cases hfit : leastSquares g.geometry.rowDesign values.toArray <;>
        simp [hfit, bind, Except.bind, pure, Except.pure]

theorem checkedFitRows_eq (h : g.Consistent) : g.checkedFitRows = ofResult g.fitRows := by
  have hrows : (List.range g.height).mapM g.checkedFitRow =
      ofResult ((List.range g.height).mapM g.fitRow) :=
    mapM_eq fun r hr => h.checkedFitRow_eq (List.mem_range.mp hr)
  rw [checkedFitRows, fitRows, hrows]
  cases (layOut g.width 3 : Except (Error α) Unit) with
  | error e => rfl
  | ok u =>
      cases (layOut g.height 3 : Except (Error α) Unit) with
      | error e => rfl
      | ok u => cases (List.range g.height).mapM g.fitRow <;> rfl

theorem checkedFitSurface_eq (h : g.Consistent) :
    g.checkedFitSurface = ofResult g.fitSurface := by
  have hsize := h.size_lt
  rw [h.size_eq] at hsize
  have hcount : g.geometry.countSamples = .ok (g.width * g.height) := Index.mul_eq_of_lt hsize
  have hall : g.samples.extract 0 (g.width * g.height) = g.samples := by
    rw [← h.size_eq, Array.extract_size]
  have hslice : (Checked.slice g.samples 0 (g.width * g.height) : Checked α (Array α)) =
      .ok g.samples := by
    rw [Checked.slice_eq (Nat.zero_le _) (Nat.le_of_eq h.size_eq.symm), hall]
  rw [checkedFitSurface, mul_eq hsize, fitSurface, hcount]
  simp only [bind, Except.bind, hslice]
  cases (layOut (g.width * g.height) 6 : Except (Error α) Unit) with
  | error e => rfl
  | ok u =>
      cases leastSquares (g.geometry.surfaceDesign (g.width * g.height)) g.samples <;> rfl

end Fits

end Grid.Consistent

end TiePoints
