/-!
# Single precision

Samples are stored in single precision and computed with in double precision.
`narrow` rounds a double to the nearest single, a tie going to the even one,
and a double beyond the range becoming an infinity; `widen` is exact.  Both are
stated over the unpacked form of a number, in which rounding to a format is a
function of the logic.
-/

namespace TiePoints.Double

open Float.Model

/-- The number in the precision and exponent range of `format`. -/
def fitTo (format : Format) : UnpackedFloat → UnpackedFloat
  | .finite s m e _ => UnpackedFloat.round format s m e
  | x => x

def narrow (x : Float) : Float32 :=
  .ofModel (.pack (fitTo .binary32 x.toModel.unpack))

def widen (x : Float32) : Float :=
  .ofModel (.pack (fitTo .binary64 x.toModel.unpack))

def toSingle (x : Float) : Float := widen (narrow x)

end TiePoints.Double
