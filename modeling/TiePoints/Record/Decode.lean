import TiePoints.Scene
import TiePoints.Record.Value

/-!
# Reading parameters

Placements, regions, discontinuities, modes and scene options read from record
values.  Scene options have a default for each member; the other records need
all of theirs.
-/

namespace TiePoints

open Record

variable {α : Type}

def Discontinuity.ofValue? (v : Value α) : Option Discontinuity :=
  v.name?.bind fun name => all.find? (fun d => d.tag == name)

def Mode.ofValue? (v : Value α) : Option Mode :=
  v.name?.bind fun name => all.find? (fun m => m.tag == name)

def Region.ofValue? (v : Value α) : Option Region := do
  match ← v.members? ["x", "y", "width", "height"] with
  | [some x, some y, some width, some height] =>
    return ⟨← x.toIndex?, ← y.toIndex?, ← width.toIndex?, ← height.toIndex?⟩
  | _ => none

def Geometry.ofValue? [Scalar α] (v : Value α) : Option (Geometry α) := do
  match ← v.members?
      ["width", "height", "offset_x", "offset_y", "sub_sampling_x", "sub_sampling_y"] with
  | [some width, some height, some offsetX, some offsetY, some spacingX, some spacingY] =>
    return {
      x := ⟨← width.toIndex?, ← offsetX.toScalar?, ← spacingX.toScalar?⟩
      y := ⟨← height.toIndex?, ← offsetY.toScalar?, ← spacingY.toScalar?⟩ }
  | _ => none

/-- The member if it is present, and otherwise the default; a member that is
present but wrong is refused. -/
def Record.orDefault {β : Type} (read : Value α → Option β) (default : β) :
    Option (Value α) → Option β
  | some v => read v
  | none => some default

def SceneOptions.ofValue? (v : Value α) : Option SceneOptions := do
  match ← v.members? ["mode", "chunk_rows"] with
  | [mode, chunkRows] =>
    let default : SceneOptions := {}
    return ⟨← orDefault Mode.ofValue? default.mode mode,
      ← orDefault Value.toIndex? default.chunkRows chunkRows⟩
  | _ => none

end TiePoints
