import TiePoints.Components
import TiePoints.Mode
import TiePoints.Fit

/-!
# Interpolants

Before a grid is asked for values, it is turned into an interpolant: the grid
itself, its component grids, or the polynomials fitted to it.  Only a fit can
fail.  An interpolant answers for single places of the scene, and all answers
about blocks and scenes come down to it.
-/

namespace TiePoints

inductive Interpolant (α : Type)
  | plain (grid : Grid α)
  | angular (components : Components α) (wrap : Discontinuity)
  | rows (rowAxis : Axis α) (fits : Array (Parabola α))
  | surface (fit : Surface α)

variable {α : Type} [Scalar α] [Circular α]

namespace Interpolant

def valueAt : Interpolant α → (x y : α) → Except (Error α) α
  | plain g, x, y => g.mixAtPlace x y
  | angular parts wrap, x, y => parts.mixAtPlace wrap x y
  | rows axis fits, x, y =>
    let r := axis.pointBefore y
    match fits[r]? with
    | some p => .ok (p.eval x)
    | none => .error (.breach (.rowIndex r fits.size))
  | surface p, x, y => .ok (p.eval x y)

def pixel (s : Interpolant α) (px py : Nat) : Except (Error α) α :=
  s.valueAt (pixelCentre px) (pixelCentre py)

end Interpolant

namespace Grid

/-- What bilinear interpolation works on. -/
def mixing (g : Grid α) : Interpolant α :=
  if g.discontinuity.isAngular then .angular g.components g.discontinuity else .plain g

def valueAt (g : Grid α) (x y : α) : Except (Error α) α := g.mixing.valueAt x y

end Grid

end TiePoints
