import TiePoints.Error

/-!
# Where angles wrap

A grid holds a plain quantity, or angles in degrees that jump by 360 at a
declared place.  Angles in `(-180, 180]` jump at 180 and angles in `[0, 360)`
at 360.
-/

namespace TiePoints

inductive Discontinuity
  | none
  | at180
  | at360
  deriving DecidableEq, Repr

namespace Discontinuity

/-- The code of product formats. -/
def degrees : Discontinuity → Nat
  | none => 0
  | at180 => 180
  | at360 => 360

def isAngular : Discontinuity → Bool
  | none => false
  | at180 => true
  | at360 => true

def label : Discontinuity → String
  | none => "none"
  | at180 => "180"
  | at360 => "360"

/-- The name in records and in descriptions of a grid. -/
def tag : Discontinuity → String
  | none => "None"
  | at180 => "At180"
  | at360 => "At360"

def all : List Discontinuity := [none, at180, at360]

theorem mem_all (d : Discontinuity) : d ∈ all := by cases d <;> decide

variable {α : Type} [Scalar α]

def ofCode (code : Int) : Except (Error α) Discontinuity :=
  match all.find? (fun d => (d.degrees : Int) = code) with
  | some d => .ok d
  | Option.none => .error (.geometry (.unknownCode code))

/-- Samples above 180 tell angles in `[0, 360)`; infinite and undefined samples
tell nothing. -/
def infer (samples : Array α) : Discontinuity :=
  if samples.any (fun a => Scalar.isFinite a && Scalar.ofNat 180 < a) then at360 else at180

/-- The place of the jump for quantities that run from `lo` to `hi` and then
start again; an empty run never jumps. -/
def ofCycle (lo hi : α) : Except (Error α) Discontinuity :=
  let same := Scalar.sameValue (α := α)
  if same lo (-Scalar.ofNat 180) && same hi (Scalar.ofNat 180) then .ok at180
  else if same lo (Scalar.ofNat 0) && same hi (Scalar.ofNat 360) then .ok at360
  else if same lo hi then .ok none
  else .error (.geometry (.unknownCycle lo hi))

end Discontinuity

end TiePoints
