import TiePoints.Error
import TiePoints.Text.Blank

/-!
# Interpolation modes

Bilinear interpolation passes through the four tie points around a place.  The
other two modes fit polynomials by least squares: one parabola to each row of
the grid, or one quadratic surface to all of it.

A mode is read from its label, with any white space around it and any case.
-/

namespace TiePoints

inductive Mode
  | bilinear
  | quadratic
  | biquadratic
  deriving DecidableEq, Repr

namespace Mode

def label : Mode → String
  | bilinear => "bilinear"
  | quadratic => "quadratic"
  | biquadratic => "biquadratic"

/-- The name in records. -/
def tag : Mode → String
  | bilinear => "Bilinear"
  | quadratic => "Quadratic"
  | biquadratic => "Biquadratic"

def all : List Mode := [bilinear, quadratic, biquadratic]

theorem mem_all (m : Mode) : m ∈ all := by cases m <;> decide

def isPolynomial : Mode → Bool
  | bilinear => false
  | quadratic => true
  | biquadratic => true

def ofName {α : Type} (name : String) : Except (Error α) Mode :=
  let key := (Text.trim name.toList).flatMap Text.lowerAscii
  match all.find? (fun m => m.label.toList = key) with
  | some m => .ok m
  | none => .error (.unsupportedMode name)

end Mode

end TiePoints
