import TiePoints.Grid.Basic
import TiePoints.LeastSquares.Basic

/-!
# Polynomial fits

A parabola is fitted to each row of a grid and a quadratic surface to all of
it, in the scene coordinates of the tie points.  The columns of a design are
the monomials in the order of the coefficients, so that a fit is the list of
its coefficients.  Where angles wrap plays no part here.  The tables of a fit
can take more storage than the samples do, and are laid out before anything is
computed.
-/

namespace TiePoints

/-- The polynomial `c0 + c1 * x + c2 * x ^ 2`. -/
structure Parabola (α : Type) where
  c0 : α
  c1 : α
  c2 : α
  deriving DecidableEq, Repr

/-- The polynomial `c0 + c1 * x + c2 * y + c3 * x ^ 2 + c4 * x * y + c5 * y ^ 2`. -/
structure Surface (α : Type) where
  c0 : α
  c1 : α
  c2 : α
  c3 : α
  c4 : α
  c5 : α
  deriving DecidableEq, Repr

variable {α : Type} [Scalar α]

namespace Parabola

def eval (p : Parabola α) (x : α) : α := p.c0 + p.c1 * x + p.c2 * x * x

omit [Scalar α] in
def ofVector (v : Vector α 3) : Parabola α := ⟨v[0], v[1], v[2]⟩

omit [Scalar α] in
def toList (p : Parabola α) : List α := [p.c0, p.c1, p.c2]

end Parabola

namespace Surface

def eval (p : Surface α) (x y : α) : α :=
  p.c0 + p.c1 * x + p.c2 * y + p.c3 * x * x + p.c4 * x * y + p.c5 * y * y

omit [Scalar α] in
def ofVector (v : Vector α 6) : Surface α := ⟨v[0], v[1], v[2], v[3], v[4], v[5]⟩

omit [Scalar α] in
def toList (p : Surface α) : List α := [p.c0, p.c1, p.c2, p.c3, p.c4, p.c5]

end Surface

namespace Geometry

/-- The monomials `1`, `x` and `x ^ 2` at the points of a row. -/
def rowDesign (g : Geometry α) : Design α g.x.points 3 :=
  #v[.ofFn fun _ => Scalar.one,
    .ofFn fun c => g.x.position c,
    .ofFn fun c => g.x.position c * g.x.position c]

/-- The monomials `1`, `x`, `y`, `x ^ 2`, `x * y` and `y ^ 2` at the first `n`
points of the grid, row by row. -/
def surfaceDesign (g : Geometry α) (n : Nat) : Design α n 6 :=
  let x (k : Nat) := g.x.position (k % g.x.points)
  let y (k : Nat) := g.y.position (k / g.x.points)
  #v[.ofFn fun _ => Scalar.one,
    .ofFn fun k => x k,
    .ofFn fun k => y k,
    .ofFn fun k => x k * x k,
    .ofFn fun k => x k * y k,
    .ofFn fun k => y k * y k]

end Geometry

/-- Lays out a table of coefficients, or of the values that they multiply. -/
def layOut (rows columns : Nat) : Except (Error α) Unit :=
  if rows * columns * Scalar.bytes α < Index.storageLimit then .ok ()
  else .error (.breach (.coefficientTable rows columns))

namespace Grid

variable [Decomposition α]

omit [Decomposition α] in
def rowSamples (g : Grid α) (r : Nat) : Except (Error α) (List α) :=
  (List.range g.width).mapM fun c => g.sample c r

def fitRow (g : Grid α) (r : Nat) : Except (Error α) (Parabola α) := do
  let values ← g.rowSamples r
  let coefficients ← leastSquares g.geometry.rowDesign values.toArray
  return .ofVector coefficients

/-- The parabolas of all rows, or the failure of the first row without one. -/
def fitRows (g : Grid α) : Except (Error α) (Array (Parabola α)) := do
  layOut g.width 3
  layOut g.height 3
  let fits ← (List.range g.height).mapM g.fitRow
  return fits.toArray

def fitSurface (g : Grid α) : Except (Error α) (Surface α) := do
  let n ← g.geometry.countSamples
  layOut n 6
  let coefficients ← leastSquares (g.geometry.surfaceDesign n) g.samples
  return .ofVector coefficients

end Grid

end TiePoints
