import TiePoints.Interpolant
import TiePoints.Pixel

/-!
# Samplers

A sampler is a grid with everything that its queries may need beside the
samples: component grids, row parabolas and a surface.  These are computed when
a query first needs them.  `Grid.sampler` computes them from the grid; a grid
that remembers them has a sampler of its own, and each query is defined once,
for samplers.
-/

namespace TiePoints

structure Sampler (α : Type) where
  grid : Grid α
  components : Thunk (Components α)
  parabolas : Thunk (Except (Error α) (Array (Parabola α)))
  surface : Thunk (Except (Error α) (Surface α))

variable {α : Type} [Scalar α] [Circular α]

def Grid.sampler [Decomposition α] (g : Grid α) : Sampler α :=
  { grid := g
    components := .mk fun _ => g.components
    parabolas := .mk fun _ => g.fitRows
    surface := .mk fun _ => g.fitSurface }

section Parts

variable [Decomposition α] (g : Grid α)

@[simp] theorem Grid.grid_sampler : g.sampler.grid = g := rfl

@[simp] theorem Grid.components_sampler : g.sampler.components.get = g.components := rfl

@[simp] theorem Grid.parabolas_sampler : g.sampler.parabolas.get = g.fitRows := rfl

@[simp] theorem Grid.surface_sampler : g.sampler.surface.get = g.fitSurface := rfl

end Parts

namespace Sampler

omit [Scalar α] [Circular α] in
def mixing (s : Sampler α) : Interpolant α :=
  if s.grid.discontinuity.isAngular then .angular s.components.get s.grid.discontinuity
  else .plain s.grid

omit [Scalar α] [Circular α] in
def interpolant (s : Sampler α) : Mode → Except (Error α) (Interpolant α)
  | .bilinear => .ok s.mixing
  | .quadratic => s.parabolas.get.map (.rows s.grid.geometry.y)
  | .biquadratic => s.surface.get.map .surface

/-! ## Places -/

def valueAt (s : Sampler α) (x y : α) : Except (Error α) α := s.mixing.valueAt x y

def valueAtMode (s : Sampler α) (x y : α) (m : Mode) : Except (Error α) α :=
  (s.interpolant m).bind fun i => i.valueAt x y

/-- The value at a place of the scene in the mode of that name.  The name is
read before anything is fitted. -/
def valueAtNamed (s : Sampler α) (x y : α) (name : String) : Except (Error α) α :=
  (Mode.ofName name).bind fun m => s.valueAtMode x y m

/-- The bilinear value at a lookup, which may come from another grid. -/
def valueAtLookup (s : Sampler α) (l : Lookup α) : Except (Error α) α :=
  if s.grid.discontinuity.isAngular then s.components.get.mixAt s.grid.discontinuity l
  else s.grid.mixAt l

/-! ## Pixels -/

def pixel (s : Sampler α) (px py : Nat) : Except (Error α) α := s.mixing.pixel px py

def pixelSingle (s : Sampler α) (px py : Nat) : Except (Error α) α :=
  (s.pixel px py).map Scalar.toSingle

def pixelInt (s : Sampler α) (px py : Nat) : Except (Error α) Int :=
  (s.pixel px py).map PixelFormat.roundToInt32

end Sampler

end TiePoints
