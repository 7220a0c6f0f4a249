import TiePoints.Decimal.Layout
import TiePoints.Grid.Basic
import TiePoints.Text.Quoted

/-!
# Description of a grid

One line that names a grid, its placement, where it wraps and how many samples
it has.
-/

namespace TiePoints

/-- A name in front of members between braces. -/
def bracedText (name : String) (members : List (String × String)) : String :=
  let body := ", ".intercalate (members.map fun m => m.1 ++ ": " ++ m.2)
  name ++ " \x7b " ++ body ++ " \x7d"

def Geometry.describe (g : Geometry Float) : String :=
  let number := Decimal.Layout.exact.write
  bracedText "GridGeometry"
    [("width", toString g.x.points), ("height", toString g.y.points),
      ("offset_x", number g.x.offset), ("offset_y", number g.y.offset),
      ("sub_sampling_x", number g.x.spacing), ("sub_sampling_y", number g.y.spacing)]

def Grid.describe (g : Grid Float) : String :=
  bracedText "TiePointGrid"
    [("name", Text.quoted g.name), ("geometry", g.geometry.describe),
      ("discontinuity", g.discontinuity.tag), ("samples", toString g.samples.size)]

end TiePoints
