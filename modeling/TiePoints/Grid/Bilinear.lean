import TiePoints.Grid.Basic

/-!
# Bilinear interpolation

A place of the scene falls into a cell, and its value is mixed from the samples
at the four corners of the cell with the two weights of the lookup.  Outside
the grid the weights are those of the nearest edge, so the value is continued
flatly.  The lookup depends on the geometry alone, and grids of one geometry
can share it.
-/

namespace TiePoints

variable {α : Type} [Scalar α]

/-- The mixture of four corners, `v10` being next to `v00` along a row and
`v01` along a column. -/
def mix (wx wy v00 v10 v01 v11 : α) : α :=
  v00 + wx * (v10 - v00) + wy * (v01 - v00) + wx * wy * (v11 + v00 - v01 - v10)

/-- Something at each of the corners of a cell, `v10` being next to `v00` along a
row and `v01` along a column. -/
structure Corners (β : Type) where
  v00 : β
  v10 : β
  v01 : β
  v11 : β

/-- The mixture of the corners at the weights of a lookup. -/
def Corners.mix (l : Lookup α) (c : Corners α) : α :=
  TiePoints.mix l.column.weight l.row.weight c.v00 c.v10 c.v01 c.v11

namespace Grid

omit [Scalar α] in
/-- The samples at the corners of the cell that a lookup names.  The lookup may
have been made for another grid. -/
def cornerSamples (g : Grid α) (l : Lookup α) : Except (Error α) (Corners α) := do
  let row ← Index.mul l.row.origin g.width
  let nextRow ← Index.add row g.width
  let upper ← Index.add row l.column.origin
  let v00 ← g.sampleAt upper
  let nextUpper ← Index.add upper 1
  let v10 ← g.sampleAt nextUpper
  let lower ← Index.add nextRow l.column.origin
  let v01 ← g.sampleAt lower
  let nextLower ← Index.add lower 1
  let v11 ← g.sampleAt nextLower
  return ⟨v00, v10, v01, v11⟩

def mixAt (g : Grid α) (l : Lookup α) : Except (Error α) α :=
  (g.cornerSamples l).map (·.mix l)

/-- The mixture at a place of the scene, with the samples taken as they are. -/
def mixAtPlace (g : Grid α) (x y : α) : Except (Error α) α := g.mixAt (g.geometry.lookup x y)

end Grid

end TiePoints
