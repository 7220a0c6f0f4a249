import TiePoints.Proofs.Checked.Steps
import TiePoints.Request

/-!
# Queries in checked steps

Every query of the library once more, step for step, with each sum, product and
difference of positions and each access to samples, coefficients and buffers
made as a checked step.  What has no such step in it is taken over as it is:
the arithmetic of scalars, the solution of a system and the refusal of a
request.
-/

namespace TiePoints

open Checked

variable {α : Type} [Scalar α]

namespace Axis

/-- The cell of a coordinate, located between the first and the last point but one. -/
def checkedCell (a : Axis α) (s : α) : Checked α (Cell α) := do
  let last ← sub a.points 1
  let beforeLast ← sub a.points 2
  let i := a.fractionalIndex s
  let index :=
    if Scalar.isNaN i then Scalar.zero else Scalar.clamp Scalar.zero (Scalar.ofNat last) i
  let origin := min (Scalar.floorIndex index) beforeLast
  return { origin, weight := index - Scalar.ofNat origin }

def checkedPointBefore (a : Axis α) (s : α) : Checked α Nat := do
  let last ← sub a.points 1
  return min (Scalar.floorIndex (a.fractionalIndex s)) last

end Axis

def Geometry.checkedLookup (g : Geometry α) (x y : α) : Checked α (Lookup α) := do
  let column ← g.x.checkedCell x
  let row ← g.y.checkedCell y
  return { column, row }

namespace Grid

/-! ## Samples -/

def checkedMixAt (g : Grid α) (l : Lookup α) : Checked α α := do
  let row0 ← mul l.row.origin g.width
  let row1 ← add row0 g.width
  let upper ← add row0 l.column.origin
  let v00 ← get g.samples upper
  let v10 ← get g.samples (← add upper 1)
  let lower ← add row1 l.column.origin
  let v01 ← get g.samples lower
  let v11 ← get g.samples (← add lower 1)
  return mix l.column.weight l.row.weight v00 v10 v01 v11

def checkedMixAtPlace (g : Grid α) (x y : α) : Checked α α := do
  g.checkedMixAt (← g.geometry.checkedLookup x y)

def checkedSample (g : Grid α) (i j : Nat) : Checked α α := do
  get g.samples (← add i (← mul j g.width))

def checkedReadRows (g : Grid α) (x width : Nat) : (y rows : Nat) → Checked α (List α)
  | _, 0 => .ok []
  | y, rows + 1 => do
    let start ← add (← mul y g.width) x
    let first ← Checked.slice g.samples start (← add start width)
    let rest ← checkedReadRows g x width (y + 1) rows
    return first.toList ++ rest

def checkedRead (g : Grid α) (r : Region) : Checked α (Array α) :=
  if Index.exceeds r.x r.width g.width || Index.exceeds r.y r.height g.height then
    .error (.failure (.geometry (.outsideGrid r g.width g.height)))
  else do
    let _ ← mul r.width r.height
    let _ ← add r.y r.height
    let rows ← g.checkedReadRows r.x r.width r.y r.height
    return rows.toArray

/-! ## Fits -/

section Fits

variable [Decomposition α]

def checkedFitRow (g : Grid α) (r : Nat) : Checked α (Parabola α) := do
  let values ← (List.range g.width).mapM fun c => g.checkedSample c r
  let coefficients ← ofResult (leastSquares g.geometry.rowDesign values.toArray)
  return .ofVector coefficients

def checkedFitRows (g : Grid α) : Checked α (Array (Parabola α)) := do
  ofResult (layOut g.width 3)
  ofResult (layOut g.height 3)
  let fits ← (List.range g.height).mapM g.checkedFitRow
  return fits.toArray

def checkedFitSurface (g : Grid α) : Checked α (Surface α) := do
  let n ← mul g.width g.height
  ofResult (layOut n 6)
  let values ← Checked.slice g.samples 0 n
  let coefficients ← ofResult (leastSquares (g.geometry.surfaceDesign n) values)
  return .ofVector coefficients

end Fits

/-- A separable scan, with the end of the block located along each axis. -/
def checkedFillMix (g : Grid α) (r : Region) (buffer : Array α) : Checked α (Array α) :=
  if r.width = 0 then .ok buffer
  else if Index.storageLimit ≤ cellBytes * r.width then
    .error (.failure (.breach (.cellTable r.width)))
  else do
    let _ ← add r.x r.width
    let columns ← (List.range r.width).mapM fun col =>
      g.geometry.x.checkedCell (pixelCentre (r.x + col))
    let _ ← add r.y r.height
    let writes := (List.range r.height).flatMap fun row =>
      columns.mapIdx fun col column => (row * r.width + col, do
        let rowCell ← g.geometry.y.checkedCell (pixelCentre (r.y + row))
        g.checkedMixAt ⟨column, rowCell⟩)
    write writes buffer

end Grid

variable [Circular α]

namespace Components

def checkedMixAt (c : Components α) (d : Discontinuity) (l : Lookup α) : Checked α α := do
  let sin ← c.sin.checkedMixAt l
  let cos ← c.cos.checkedMixAt l
  return d.combine sin cos

def checkedMixAtPlace (c : Components α) (d : Discontinuity) (x y : α) : Checked α α := do
  let sin ← c.sin.checkedMixAtPlace x y
  let cos ← c.cos.checkedMixAtPlace x y
  return d.combine sin cos

def checkedFill (c : Components α) (d : Discontinuity) (r : Region) (buffer : Array α) :
    Checked α (Array α) := do
  let blank := Array.replicate r.count Scalar.zero
  let sines ← c.sin.checkedFillMix r blank
  let cosines ← c.cos.checkedFillMix r blank
  return overwrite 0 (sines.zipWith d.combine cosines) buffer

end Components

namespace Interpolant

def checkedValueAt : Interpolant α → (x y : α) → Checked α α
  | plain g, x, y => g.checkedMixAtPlace x y
  | angular parts wrap, x, y => parts.checkedMixAtPlace wrap x y
  | rows axis fits, x, y => do
    let p ← get fits (← axis.checkedPointBefore y)
    return p.eval x
  | surface p, x, y => return p.eval x y

def checkedPixel (i : Interpolant α) (px py : Nat) : Checked α α :=
  i.checkedValueAt (pixelCentre px) (pixelCentre py)

end Interpolant

namespace Grid

variable [Decomposition α]

/-! ## Places -/

def checkedInterpolant (g : Grid α) : Mode → Checked α (Interpolant α)
  | .bilinear => return g.mixing
  | .quadratic => return .rows g.geometry.y (← g.checkedFitRows)
  | .biquadratic => return .surface (← g.checkedFitSurface)

def checkedValueAtMode (g : Grid α) (x y : α) (m : Mode) : Checked α α := do
  (← g.checkedInterpolant m).checkedValueAt x y

omit [Decomposition α] in
def checkedValueAtLookup (g : Grid α) (l : Lookup α) : Checked α α :=
  if g.discontinuity.isAngular then g.components.checkedMixAt g.discontinuity l
  else g.checkedMixAt l

/-! ## Blocks -/

/-- The writes of a scan pixel by pixel. -/
def checkedPixelWrites (g : Grid α) (m : Mode) (r : Region) : List (Nat × Checked α α) :=
  (List.range r.height).flatMap fun row =>
    (List.range r.width).map fun col => (row * r.width + col, do
      (← g.checkedInterpolant m).checkedPixel (r.x + col) (r.y + row))

def checkedFill (g : Grid α) (m : Mode) (r : Region) (buffer : Array α) :
    Checked α (Array α) := do
  ofResult (r.checkFill buffer.size)
  if m.isPolynomial then
    if r.width = 0 then return buffer
    else
      let _ ← add r.y r.height
      let _ ← add r.x r.width
      write (g.checkedPixelWrites m r) buffer
  else
    let _ ← Checked.slice buffer 0 r.count
    if g.discontinuity.isAngular then g.components.checkedFill g.discontinuity r buffer
    else g.checkedFillMix r buffer

def checkedFillAs (g : Grid α) (f : PixelFormat) (m : Mode) (r : Region)
    (buffer : Array (Pixel α)) : Checked α (Array (Pixel α)) := do
  ofResult (r.checkFill buffer.size)
  if r.IsStorable then
    let values ← g.checkedFill m r (Array.replicate r.count Scalar.zero)
    return overwrite 0 (values.map f.ofValue) buffer
  else .error (.failure (.breach (.valueTable r.count)))

def checkedBlock (g : Grid α) (m : Mode) (r : Region) : Checked α (Raster α) := do
  let n ← ofResult r.storableCount
  let values ← g.checkedFill m r (Array.replicate n Scalar.zero)
  ofResult (Raster.ofValues r.height r.width values)

/-! ## Scenes -/

def checkedFillChunk (g : Grid α) (m : Mode) (width rows : Nat) (values : Array α) (k : Nat) :
    Checked α (Array α) := do
  let size ← mul width rows
  let start := k * size
  let part := values.extract start (start + size)
  let filled ← g.checkedFill m ⟨0, ← mul k rows, width, part.size / width⟩ part
  return overwrite start filled values

def checkedSceneInChunks (g : Grid α) (o : SceneOptions) : Checked α (Raster α) := do
  let r := g.geometry.scene
  let rows := o.rowsPerChunk r.height
  let n ← ofResult r.storableCount
  let blank := Array.replicate n Scalar.zero
  let values ←
    if r.width = 0 then pure blank
    else do
      let size ← mul r.width rows
      (List.range (Sampler.chunkCount n size)).foldlM (g.checkedFillChunk o.mode r.width rows) blank
  ofResult (Raster.ofValues r.height r.width values)

/-- The reply to a request that leaves the grid as it is, in checked steps. -/
def checkedReply (g : Grid α) : Request α → Checked α (Answer α)
  | .valueAt x y => return .scalar (← g.mixing.checkedValueAt x y)
  | .valueAtMode x y m => return .scalar (← g.checkedValueAtMode x y m)
  | .valueAtNamed x y name => do
    let m ← ofResult (Mode.ofName name)
    return .scalar (← g.checkedValueAtMode x y m)
  | .valueAtLookup l => return .scalar (← g.checkedValueAtLookup l)
  | .pixel x y => return .scalar (← g.mixing.checkedPixel x y)
  | .pixelSingle x y => return .scalar (Scalar.toSingle (← g.mixing.checkedPixel x y))
  | .pixelInt x y => return .whole (PixelFormat.roundToInt32 (← g.mixing.checkedPixel x y))
  | .fill m r buffer => return .buffer (← g.checkedFill m r buffer)
  | .fillAs f m r buffer => return .pixels (← g.checkedFillAs f m r buffer)
  | .block m r => return .raster (← g.checkedBlock m r)
  | .scene o => return .raster (← g.checkedBlock o.mode g.geometry.scene)
  | .sceneInChunks o => return .raster (← g.checkedSceneInChunks o)
  | .parabolas => return .parabolas (← g.checkedFitRows)
  | .surface => return .surface (← g.checkedFitSurface)
  | r => ofResult (g.sampler.reply r)

end Grid

end TiePoints
