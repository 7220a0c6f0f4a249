import TiePoints.Decimal.Layout
import TiePoints.Error

/-!
# Wording of failures

Each failure has a kind and a text.  Numbers stand in the text as their
shortest decimals, without a power of ten.
-/

namespace TiePoints

private def sides (width height : Nat) : String := s!"{width}x{height}"

private def decimal (x : Float) : String := Decimal.Layout.plain.write x

def Direction.name : Direction → String
  | .x => "x"
  | .y => "y"

def GeometryFault.message : GeometryFault Float → String
  | .tooFewPoints w h => "grid must be at least 2x2, got " ++ sides w h
  | .sampleCount n w h => s!"data array size {n} does not match " ++ sides w h
  | .spacing along v => "sub-sampling " ++ along.name ++ " must be positive, got " ++ decimal v
  | .offsets x y => "offsets must be finite, got (" ++ decimal x ++ ", " ++ decimal y ++ ")"
  | .outsideGrid r w h =>
    "region " ++ sides r.width r.height ++ s!" at ({r.x}, {r.y}) exceeds " ++ sides w h ++ " grid"
  | .blockBeyondRange r =>
    "block " ++ sides r.width r.height ++ s!" at ({r.x}, {r.y}) overflows the pixel index range"
  | .storage n =>
    s!"cannot allocate {n} pixels: memory allocation failed because the computed capacity " ++
      "exceeded the collection's maximum"
  | .shape => "Shape error: ShapeError/Overflow: arithmetic overflow"
  | .zeroStep x y => s!"subset steps must be at least 1, got ({x}, {y})"
  | .emptyRegion w h => "subset region " ++ sides w h ++ " is empty"
  | .unknownCode code => s!"unsupported discontinuity mode: {code}"
  | .unknownCycle lo hi =>
    "unsupported discontinuity cycle [" ++ decimal lo ++ ", " ++ decimal hi ++ "]"

def FitFault.message : FitFault → String
  | .rowCount rows values =>
    s!"design matrix has {rows} rows but {values} values were given"
  | .degenerate => "design matrix is degenerate"

/-- The text of a failure; a breach has none. -/
def Error.message : Error Float → Option String
  | .geometry fault => some ("Invalid geometry: " ++ fault.message)
  | .unsupportedMode name => some ("Unsupported interpolation mode: " ++ name)
  | .readOnly grid =>
    some ("Read-only violation: pixels are read-only in tie-point grid '" ++ grid ++ "'")
  | .bufferTooSmall required actual =>
    some s!"Output buffer too small: {required} elements required, {actual} given"
  | .fit fault => some ("Polynomial fit failed: " ++ fault.message)
  | .breach _ => none

end TiePoints
