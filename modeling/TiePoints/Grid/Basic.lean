import TiePoints.Discontinuity
import TiePoints.Geometry

/-!
# Tie-point grids

A grid is a sparse table of samples at regular places of a scene, row by row.
`Grid.build` is the only way to a grid from outside; `Grid.Consistent` is what
every query relies on.  Positions of samples are counted in words, and a query
that leaves the words or the samples breaks off.  The samples themselves are
never changed.
-/

namespace TiePoints

structure Grid (α : Type) where
  name : String
  unit : Option String
  description : Option String
  geometry : Geometry α
  samples : Array α
  discontinuity : Discontinuity
  deriving DecidableEq, Repr

namespace Grid

variable {α : Type} [Scalar α]

/-- A grid without unit and description, if the geometry suits the samples. -/
def build (name : String) (geometry : Geometry α) (samples : Array α)
    (discontinuity : Discontinuity) : Except (Error α) (Grid α) :=
  (geometry.validate samples.size).map fun _ =>
    { name, unit := none, description := none, geometry, samples, discontinuity }

theorem build_eq_ok_iff {name : String} {geometry : Geometry α} {samples : Array α}
    {d : Discontinuity} {g : Grid α} :
    build name geometry samples d = .ok g ↔
      geometry.Valid samples.size ∧ g = ⟨name, none, none, geometry, samples, d⟩ := by
  rw [← Geometry.validate_eq_ok_iff]
  unfold build
  cases geometry.validate samples.size with
  | error e => exact iff_of_false (fun h => nomatch h) (fun h => nomatch h.1)
  | ok u =>
    constructor
    · intro h
      cases h
      exact ⟨rfl, rfl⟩
    · rintro ⟨-, rfl⟩
      rfl

/-- A grid of a plain quantity. -/
def ofSamples (name : String) (geometry : Geometry α) (samples : Array α) :
    Except (Error α) (Grid α) :=
  build name geometry samples .none

/-- A grid whose samples may be angles, which then tell where they wrap. -/
def ofAngles (name : String) (geometry : Geometry α) (samples : Array α)
    (containsAngles : Bool) : Except (Error α) (Grid α) :=
  build name geometry samples (if containsAngles then .infer samples else .none)

def withUnit (g : Grid α) (unit : String) : Grid α := { g with unit := some unit }

def withDescription (g : Grid α) (description : String) : Grid α :=
  { g with description := some description }

def withDiscontinuity (g : Grid α) (d : Discontinuity) : Grid α := { g with discontinuity := d }

def width (g : Grid α) : Nat := g.geometry.x.points

def height (g : Grid α) : Nat := g.geometry.y.points

/-- What queries rely on: a sound placement, and a sample for each of its points. -/
structure Consistent (g : Grid α) : Prop where
  valid : g.geometry.Valid g.samples.size

theorem Consistent.size_eq {g : Grid α} (h : g.Consistent) :
    g.samples.size = g.width * g.height :=
  h.valid.samples_eq

theorem Consistent.size_lt {g : Grid α} (h : g.Consistent) : g.samples.size < Index.limit :=
  h.valid.samples_lt

/-! ## Samples -/

/-- The sample at a position of the row-by-row order. -/
def sampleAt (g : Grid α) (position : Nat) : Except (Error α) α :=
  match g.samples[position]? with
  | some a => .ok a
  | none => .error (.breach (.sampleIndex position g.samples.size))

def position (g : Grid α) (i j : Nat) : Except (Error α) Nat := do
  let row ← Index.mul j g.width
  Index.add i row

def sample (g : Grid α) (i j : Nat) : Except (Error α) α := do
  let p ← g.position i j
  g.sampleAt p

omit [Scalar α] in
theorem sampleAt_eq_ok_iff {g : Grid α} {p : Nat} {a : α} :
    g.sampleAt p = .ok a ↔ g.samples[p]? = some a := by
  unfold sampleAt
  split <;> simp_all

/-- The `count` samples from position `start` on. -/
def slice (g : Grid α) (start count : Nat) : Except (Error α) (List α) := do
  let stop ← Index.add start count
  if stop ≤ g.samples.size then return (g.samples.extract start stop).toList
  else .error (.breach (.sampleIndex stop g.samples.size))

/-- The samples of the next `rows` rows from row `y` on, in the columns of the
region. -/
def readRows (g : Grid α) (x width : Nat) : (y rows : Nat) → Except (Error α) (List α)
  | _, 0 => .ok []
  | y, rows + 1 => do
    let row ← Index.mul y g.width
    let start ← Index.add row x
    let first ← g.slice start width
    let rest ← readRows g x width (y + 1) rows
    return first ++ rest

/-- The samples of a rectangle of grid points, row by row. -/
def read (g : Grid α) (r : Region) : Except (Error α) (Array α) :=
  if Index.exceeds r.x r.width g.width || Index.exceeds r.y r.height g.height then
    .error (.geometry (.outsideGrid r g.width g.height))
  else do
    let _ ← Index.mul r.width r.height
    let _ ← Index.add r.y r.height
    let rows ← g.readRows r.x r.width r.y r.height
    return rows.toArray

/-! ## Writing -/

/-- Samples are read-only, whatever the pixel and the value. -/
def setPixel (g : Grid α) (_x _y : Nat) (_value : α) : Except (Error α) Unit :=
  .error (.readOnly g.name)

def setPixels (g : Grid α) (_region : Region) (_values : Array α) : Except (Error α) Unit :=
  .error (.readOnly g.name)

end Grid

end TiePoints
