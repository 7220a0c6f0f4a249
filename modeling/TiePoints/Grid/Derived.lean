import TiePoints.Grid.Basic
import TiePoints.Window

/-!
# Derived grids

A subset has a scene of its own, which starts at the first pixel of the region
that it covers, and keeps the samples in the windows of both axes.  A grid of
zenith angles has the complements of the samples of a grid of elevations.  Both
are built like any grid, so a placement that rounding has spoilt is refused.
-/

namespace TiePoints

variable {α : Type} [Scalar α]

namespace Grid

/-- The grid with the unit and the description of another. -/
def describedAs (g other : Grid α) : Grid α :=
  { g with unit := other.unit, description := other.description }

/-- The subset over a region, or over the whole scene, of every `stepX`-th column
and every `stepY`-th row of pixels. -/
def subset (g : Grid α) (region : Option Region) (stepX stepY : Nat) :
    Except (Error α) (Grid α) := do
  if stepX = 0 ∨ stepY = 0 then .error (.geometry (.zeroStep stepX stepY))
  else
    let r := region.getD g.geometry.scene
    if r.isEmpty then .error (.geometry (.emptyRegion r.width r.height))
    else
      let columns := g.geometry.x.subsetWindow r.x r.width stepX
      let rows := g.geometry.y.subsetWindow r.y r.height stepY
      let samples ← g.read ⟨columns.first, rows.first, columns.count, rows.count⟩
      let geometry : Geometry α :=
        ⟨g.geometry.x.subset r.x r.width stepX, g.geometry.y.subset r.y r.height stepY⟩
      let subset ← build g.name geometry samples g.discontinuity
      return subset.describedAs g

def zenith (g : Grid α) : Except (Error α) (Grid α) := do
  let samples := g.samples.map fun a => Scalar.toSingle (Scalar.ofNat 90 - a)
  let zenith ← build g.name g.geometry samples .none
  return zenith.describedAs g

end Grid

end TiePoints
