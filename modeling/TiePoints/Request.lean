import TiePoints.Scene

/-!
# Requests

Everything that can be asked of a grid in use, as data: values, blocks, scenes
and coefficients, refused writes, and the changes of its state.  A sampler
replies to a request; what the request does to the state is another matter, and
`Request.mode?` tells which interpolant the reply will need.
-/

namespace TiePoints

inductive Request (α : Type)
  | valueAt (x y : α)
  | valueAtMode (x y : α) (mode : Mode)
  | valueAtNamed (x y : α) (name : String)
  | valueAtLookup (lookup : Lookup α)
  | pixel (x y : Nat)
  | pixelSingle (x y : Nat)
  | pixelInt (x y : Nat)
  | fill (mode : Mode) (region : Region) (buffer : Array α)
  | fillAs (format : PixelFormat) (mode : Mode) (region : Region) (buffer : Array (Pixel α))
  | block (mode : Mode) (region : Region)
  | scene (options : SceneOptions)
  | sceneInChunks (options : SceneOptions)
  | parabolas
  | surface
  | setPixel (x y : Nat) (value : α)
  | setPixels (region : Region) (values : Array α)
  | setDiscontinuity (d : Discontinuity)
  | release
  | copy

inductive Answer (α : Type)
  | done
  | scalar (value : α)
  | whole (value : Int)
  | buffer (values : Array α)
  | pixels (values : Array (Pixel α))
  | raster (values : Raster α)
  | parabolas (fits : Array (Parabola α))
  | surface (fit : Surface α)

/-- The mode of a fill that gets as far as asking for values.  An empty block is
scanned in bilinear mode only. -/
def Region.fillMode? (r : Region) (m : Mode) (bufferSize : Nat) : Option Mode :=
  if r.InRange ∧ r.count ≤ bufferSize ∧ ¬ (m.isPolynomial ∧ r.isEmpty) then some m else none

/-- The mode of a block that gets as far as asking for values. -/
def Region.blockMode? (r : Region) (m : Mode) : Option Mode :=
  if r.IsStorable then r.fillMode? m r.count else none

variable {α : Type} [Scalar α]

/-- The mode whose interpolant the reply needs, if it needs one. -/
def Request.mode? (g : Grid α) : Request α → Option Mode
  | valueAt _ _ => some .bilinear
  | valueAtMode _ _ m => some m
  | valueAtNamed _ _ name => (Mode.ofName name : Except (Error α) Mode).toOption
  | valueAtLookup _ => some .bilinear
  | pixel _ _ => some .bilinear
  | pixelSingle _ _ => some .bilinear
  | pixelInt _ _ => some .bilinear
  | fill m r buffer => r.fillMode? m buffer.size
  | fillAs _ m r buffer => r.fillMode? m buffer.size
  | block m r => r.blockMode? m
  | scene o => g.geometry.scene.blockMode? o.mode
  | sceneInChunks o => g.geometry.scene.blockMode? o.mode
  | parabolas => some .quadratic
  | surface => some .biquadratic
  | setPixel _ _ _ => none
  | setPixels _ _ => none
  | setDiscontinuity _ => none
  | release => none
  | copy => none

def Sampler.reply [Circular α] (s : Sampler α) : Request α → Except (Error α) (Answer α)
  | .valueAt x y => (s.valueAt x y).map .scalar
  | .valueAtMode x y m => (s.valueAtMode x y m).map .scalar
  | .valueAtNamed x y name => (s.valueAtNamed x y name).map .scalar
  | .valueAtLookup l => (s.valueAtLookup l).map .scalar
  | .pixel x y => (s.pixel x y).map .scalar
  | .pixelSingle x y => (s.pixelSingle x y).map .scalar
  | .pixelInt x y => (s.pixelInt x y).map .whole
  | .fill m r buffer => (s.fill m r buffer).result.map .buffer
  | .fillAs f m r buffer => (s.fillAs f m r buffer).result.map .pixels
  | .block m r => (s.block m r).map .raster
  | .scene o => (s.scene o).map .raster
  | .sceneInChunks o => (s.sceneInChunks o).map .raster
  | .parabolas => s.parabolas.get.map .parabolas
  | .surface => s.surface.get.map .surface
  | .setPixel x y v => (s.grid.setPixel x y v).map fun _ => .done
  | .setPixels r vs => (s.grid.setPixels r vs).map fun _ => .done
  | .setDiscontinuity _ => .ok .done
  | .release => .ok .done
  | .copy => .ok .done

end TiePoints
