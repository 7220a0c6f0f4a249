import TiePoints.Grid.Bilinear

/-!
# Angles

The mean of 359 and 1 degrees is not 180.  A grid of angles is therefore split
into a grid of sines and a grid of cosines; each is interpolated, and the
direction of the resulting vector is the answer.  The component grids hold a
plain quantity each and inherit name and geometry, so a lookup made for the
grid of angles serves them too.
-/

namespace TiePoints

structure Components (α : Type) where
  sin : Grid α
  cos : Grid α
  deriving DecidableEq, Repr

variable {α : Type} [Scalar α] [Circular α]

/-- The direction of a vector in degrees, negative ones being turned once
around where angles wrap at 360. -/
def Discontinuity.combine (d : Discontinuity) (sin cos : α) : α :=
  let angle := Circular.toDegrees (Circular.atan2 sin cos)
  if angle < Scalar.zero && d == .at360 then angle + Scalar.ofNat 360 else angle

namespace Grid

/-- A grid of the same place with other samples, without unit and description. -/
def component (g : Grid α) (samples : Array α) : Grid α :=
  { g with unit := none, description := none, samples, discontinuity := .none }

/-- The sines and cosines of the samples, each kept in single precision. -/
def components (g : Grid α) : Components α :=
  let part (f : α → α) : Grid α :=
    g.component (g.samples.map fun a => Scalar.toSingle (f (Circular.toRadians a)))
  { sin := part Circular.sin, cos := part Circular.cos }

end Grid

namespace Components

/-- The direction at the cell that a lookup names. -/
def mixAt (c : Components α) (d : Discontinuity) (l : Lookup α) : Except (Error α) α := do
  let sin ← c.sin.mixAt l
  let cos ← c.cos.mixAt l
  return d.combine sin cos

def mixAtPlace (c : Components α) (d : Discontinuity) (x y : α) : Except (Error α) α := do
  let sin ← c.sin.mixAtPlace x y
  let cos ← c.cos.mixAtPlace x y
  return d.combine sin cos

end Components

end TiePoints
