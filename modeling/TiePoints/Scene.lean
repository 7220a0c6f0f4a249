import TiePoints.Block

/-!
# Rasters

A raster is a block as a table of its own.  Beside the extent of the block its
storage and its shape can be refused, the shape last and only where a side is
zero.  The raster of the whole scene is extracted as one block or in chunks of
rows, each filled into its own part of the values; the chunks can be processed
in any order.
-/

namespace TiePoints

structure Raster (α : Type) where
  height : Nat
  width : Nat
  values : Array α
  deriving DecidableEq, Repr

structure SceneOptions where
  mode : Mode := .bilinear
  chunkRows : Nat := 256
  deriving DecidableEq, Repr

/-- The number of rows in a chunk of a scene: at least one, and at most all. -/
def SceneOptions.rowsPerChunk (o : SceneOptions) (height : Nat) : Nat :=
  max 1 (min o.chunkRows (max height 1))

variable {α : Type}

/-- The product of the sides that are not zero must not exceed what storage can
be measured in. -/
def Raster.ofValues (height width : Nat) (values : Array α) : Except (Error α) (Raster α) :=
  if max height 1 * max width 1 < Index.storageLimit then .ok ⟨height, width, values⟩
  else .error (.geometry .shape)

/-- The number of pixels of a block, if its extent is in range and its values can
be stored. -/
def Region.storableCount (r : Region) : Except (Error α) Nat := do
  let n ← r.pixelCount
  if r.IsStorable then .ok n else .error (.geometry (.storage n))

variable [Scalar α] [Circular α]

namespace Sampler

def block (s : Sampler α) (m : Mode) (r : Region) : Except (Error α) (Raster α) := do
  let n ← r.storableCount
  let values ← (s.fill m r (Array.replicate n Scalar.zero)).result
  Raster.ofValues r.height r.width values

def scene (s : Sampler α) (o : SceneOptions) : Except (Error α) (Raster α) :=
  s.block o.mode s.grid.geometry.scene

/-- Fills chunk `k` of a scene into its part of the values. -/
def fillChunk (s : Sampler α) (m : Mode) (width rows : Nat) (values : Array α) (k : Nat) :
    Except (Error α) (Array α) := do
  let start := k * (width * rows)
  let part := values.extract start (start + width * rows)
  let filled ← (s.fill m ⟨0, k * rows, width, part.size / width⟩ part).result
  return overwrite start filled values

/-- The number of chunks of `size` values that `n` values make up. -/
def chunkCount (n size : Nat) : Nat := (n + size - 1) / size

/-- The raster of the scene, with its chunks processed in the given order. -/
def sceneInOrder (s : Sampler α) (o : SceneOptions) (order : Nat → List Nat) :
    Except (Error α) (Raster α) := do
  let r := s.grid.geometry.scene
  let rows := o.rowsPerChunk r.height
  let n ← r.storableCount
  let blank := Array.replicate n Scalar.zero
  let values ←
    if r.width = 0 then pure blank
    else (order (chunkCount n (r.width * rows))).foldlM (s.fillChunk o.mode r.width rows) blank
  Raster.ofValues r.height r.width values

def sceneInChunks (s : Sampler α) (o : SceneOptions) : Except (Error α) (Raster α) :=
  s.sceneInOrder o List.range

end Sampler

end TiePoints
