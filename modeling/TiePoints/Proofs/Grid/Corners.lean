import TiePoints.Components
import TiePoints.Proofs.Result

/-!
# Corners of a cell

What a lookup mixes are the samples of four tie points, in two columns and two
rows.  The positions of these are computed in steps, the second row from the
first and the second column from the first, and none of the steps leaves the
words if the four samples are found.  Grids whose samples are computed one by
one mix what is computed at the corners, and fail where the grid fails that
they were computed from.
-/

namespace TiePoints

variable {α β γ : Type}

def Corners.map (f : β → γ) (c : Corners β) : Corners γ := ⟨f c.v00, f c.v10, f c.v01, f c.v11⟩

namespace Grid

theorem sample_eq_ok {g : Grid α} {i j : Nat} {a : α} :
    g.sample i j = .ok a ↔
      i + j * g.width < Index.limit ∧ g.sampleAt (i + j * g.width) = .ok a := by
  simp only [sample, position, bind_eq_ok, Index.mul_eq_ok_iff, Index.add_eq_ok_iff]
  constructor
  · rintro ⟨_, ⟨_, ⟨-, rfl⟩, hword, rfl⟩, ha⟩
    exact ⟨hword, ha⟩
  · rintro ⟨hword, ha⟩
    have hrow : j * g.width < Index.limit := Nat.lt_of_le_of_lt (Nat.le_add_left _ i) hword
    exact ⟨_, ⟨_, ⟨hrow, rfl⟩, hword, rfl⟩, ha⟩

/-- The corners of a cell are found if and only if the samples of its four tie points are. -/
theorem cornerSamples_eq_ok {g : Grid α} {l : Lookup α} {c : Corners α} :
    g.cornerSamples l = .ok c ↔
      g.sample l.column.origin l.row.origin = .ok c.v00 ∧
        g.sample (l.column.origin + 1) l.row.origin = .ok c.v10 ∧
        g.sample l.column.origin (l.row.origin + 1) = .ok c.v01 ∧
        g.sample (l.column.origin + 1) (l.row.origin + 1) = .ok c.v11 := by
  generalize hi : l.column.origin = i
  generalize hj : l.row.origin = j
  have hrow : (j + 1) * g.width = j * g.width + g.width := Nat.succ_mul j g.width
  have hupper : i + j * g.width = j * g.width + i := Nat.add_comm _ _
  have hnextUpper : i + 1 + j * g.width = j * g.width + i + 1 := by omega
  have hlower : i + (j * g.width + g.width) = j * g.width + g.width + i := Nat.add_comm _ _
  have hnextLower : i + 1 + (j * g.width + g.width) = j * g.width + g.width + i + 1 := by omega
  simp only [cornerSamples, sample_eq_ok, bind_eq_ok, Index.mul_eq_ok_iff, Index.add_eq_ok_iff,
    hi, hj, hrow, hupper, hnextUpper, hlower, hnextLower]
  constructor
  · rintro ⟨_, ⟨-, rfl⟩, _, ⟨-, rfl⟩, _, ⟨h00, rfl⟩, v00, a00, _, ⟨h10, rfl⟩, v10, a10,
      _, ⟨h01, rfl⟩, v01, a01, _, ⟨h11, rfl⟩, v11, a11, h⟩
    obtain rfl := Except.ok.inj h
    exact ⟨⟨h00, a00⟩, ⟨h10, a10⟩, ⟨h01, a01⟩, ⟨h11, a11⟩⟩
  · rintro ⟨⟨h00, a00⟩, ⟨h10, a10⟩, ⟨h01, a01⟩, ⟨h11, a11⟩⟩
    -- the rows start where a sum that is a word starts
    have hfirst : j * g.width < Index.limit := by omega
    have hsecond : j * g.width + g.width < Index.limit := by omega
    exact ⟨_, ⟨hfirst, rfl⟩, _, ⟨hsecond, rfl⟩, _, ⟨h00, rfl⟩, _, a00, _, ⟨h10, rfl⟩, _, a10,
      _, ⟨h01, rfl⟩, _, a01, _, ⟨h11, rfl⟩, _, a11, rfl⟩

/-! ## Samples computed one by one -/

theorem sampleAt_component_map (g : Grid α) (f : α → α) (p : Nat) :
    (g.component (g.samples.map f)).sampleAt p = (g.sampleAt p).map f := by
  have hsamples : (g.component (g.samples.map f)).samples = g.samples.map f := rfl
  rw [sampleAt, sampleAt, hsamples, Array.getElem?_map, Array.size_map]
  cases g.samples[p]? <;> rfl

theorem sample_component_map (g : Grid α) (f : α → α) (i j : Nat) :
    (g.component (g.samples.map f)).sample i j = (g.sample i j).map f := by
  have hposition : (g.component (g.samples.map f)).position i j = g.position i j := rfl
  simp only [sample, hposition, sampleAt_component_map, TiePoints.map_bind]

theorem cornerSamples_component_map (g : Grid α) (f : α → α) (l : Lookup α) :
    (g.component (g.samples.map f)).cornerSamples l = (g.cornerSamples l).map (·.map f) := by
  have hwidth : (g.component (g.samples.map f)).width = g.width := rfl
  simp only [cornerSamples, hwidth, sampleAt_component_map, TiePoints.map_bind,
    TiePoints.bind_map]
  rfl

theorem mixAt_component_map [Scalar α] (g : Grid α) (f : α → α) (l : Lookup α) :
    (g.component (g.samples.map f)).mixAt l =
      (g.cornerSamples l).map fun c => (c.map f).mix l := by
  rw [mixAt, cornerSamples_component_map, TiePoints.map_map]

end Grid

/-! ## Angles -/

variable [Scalar α] [Circular α]

namespace Corners

/-- The sine part of the vector that is mixed of angles at the corners. -/
def mixSin (l : Lookup α) (c : Corners α) : α :=
  (c.map fun a => Scalar.toSingle (Circular.sin (Circular.toRadians a))).mix l

/-- The cosine part of the vector that is mixed of angles at the corners. -/
def mixCos (l : Lookup α) (c : Corners α) : α :=
  (c.map fun a => Scalar.toSingle (Circular.cos (Circular.toRadians a))).mix l

end Corners

namespace Grid

theorem sin_mixAtPlace (g : Grid α) (x y : α) : g.components.sin.mixAtPlace x y =
    (g.cornerSamples (g.geometry.lookup x y)).map (·.mixSin (g.geometry.lookup x y)) :=
  g.mixAt_component_map _ _

theorem cos_mixAtPlace (g : Grid α) (x y : α) : g.components.cos.mixAtPlace x y =
    (g.cornerSamples (g.geometry.lookup x y)).map (·.mixCos (g.geometry.lookup x y)) :=
  g.mixAt_component_map _ _

/-- A place among angles is answered with the direction of the vector mixed of its corners. -/
theorem components_mixAtPlace (g : Grid α) (d : Discontinuity) (x y : α) :
    g.components.mixAtPlace d x y = (g.cornerSamples (g.geometry.lookup x y)).map fun c =>
      d.combine (c.mixSin (g.geometry.lookup x y)) (c.mixCos (g.geometry.lookup x y)) := by
  rw [Components.mixAtPlace, sin_mixAtPlace, cos_mixAtPlace]
  cases g.cornerSamples (g.geometry.lookup x y) <;> rfl

end Grid

end TiePoints
