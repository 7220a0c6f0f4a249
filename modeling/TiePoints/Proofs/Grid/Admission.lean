import TiePoints.Double.Scalar
import TiePoints.Proofs.Grid.Nodes

/-!
# Admission of grids

A placement is sound if it has two points or more along each axis, finite
offsets and finite positive spacings.  A grid is admitted if its placement is
sound and it has a sample for each tie point.  A product of the sides that is no
word cannot be taken for a smaller number of samples: counting the tie points
breaks off there, and no grid comes about.
-/

namespace TiePoints

variable {α : Type} [Scalar α]

namespace Geometry

/-- What is asked of a placement, the number of samples apart. -/
structure Sound (g : Geometry α) : Prop where
  width : 2 ≤ g.x.points
  height : 2 ≤ g.y.points
  spacing_x_pos : Scalar.zero < g.x.spacing
  spacing_x_finite : Scalar.isFinite g.x.spacing
  spacing_y_pos : Scalar.zero < g.y.spacing
  spacing_y_finite : Scalar.isFinite g.y.spacing
  offset_x_finite : Scalar.isFinite g.x.offset
  offset_y_finite : Scalar.isFinite g.y.offset

theorem valid_iff {g : Geometry α} {n : Nat} :
    g.Valid n ↔ g.Sound ∧ n = g.x.points * g.y.points ∧ n < Index.limit := by
  constructor
  · rintro ⟨hw, hh, hn, hlt, hx, hy, hox, hoy⟩
    obtain ⟨hxpos, hxfin⟩ := Axis.hasPositiveSpacing_iff.mp hx
    obtain ⟨hypos, hyfin⟩ := Axis.hasPositiveSpacing_iff.mp hy
    exact ⟨⟨hw, hh, hxpos, hxfin, hypos, hyfin, hox, hoy⟩, hn, hlt⟩
  · rintro ⟨h, hn, hlt⟩
    exact ⟨h.width, h.height, hn, hlt,
      Axis.hasPositiveSpacing_iff.mpr ⟨h.spacing_x_pos, h.spacing_x_finite⟩,
      Axis.hasPositiveSpacing_iff.mpr ⟨h.spacing_y_pos, h.spacing_y_finite⟩,
      h.offset_x_finite, h.offset_y_finite⟩

end Geometry

/-- The ways to ask for a grid. -/
inductive Entry
  | plain
  | wrapping (d : Discontinuity)
  | angles (containsAngles : Bool)

namespace Entry

def construct (e : Entry) (name : String) (geometry : Geometry α) (samples : Array α) :
    Except (Error α) (Grid α) :=
  match e with
  | plain => Grid.ofSamples name geometry samples
  | wrapping d => Grid.build name geometry samples d
  | angles containsAngles => Grid.ofAngles name geometry samples containsAngles

def discontinuity (e : Entry) (samples : Array α) : Discontinuity :=
  match e with
  | plain => .none
  | wrapping d => d
  | angles containsAngles => if containsAngles then .infer samples else .none

theorem construct_eq_build (e : Entry) (name : String) (geometry : Geometry α)
    (samples : Array α) :
    e.construct name geometry samples =
      Grid.build name geometry samples (e.discontinuity samples) := by
  cases e <;> rfl

theorem construct_eq_ok_iff {e : Entry} {name : String} {geometry : Geometry α}
    {samples : Array α} {g : Grid α} :
    e.construct name geometry samples = .ok g ↔
      geometry.Valid samples.size ∧
        g = ⟨name, none, none, geometry, samples, e.discontinuity samples⟩ := by
  rw [construct_eq_build, Grid.build_eq_ok_iff]

/-- Which requests for a grid are granted: those of a sound placement with a sample for each of its
points.  Every index of a tie point is then a position of the samples. -/
theorem construct_consistent_iff (e : Entry) (name : String) (geometry : Geometry α)
    (samples : Array α) :
    ((∃ g, e.construct name geometry samples = .ok g) ↔
        geometry.Sound ∧ samples.size = geometry.x.points * geometry.y.points ∧
          samples.size < Index.limit) ∧
      ∀ g, e.construct name geometry samples = .ok g →
        (g.geometry = geometry ∧ g.samples = samples) ∧
          g.samples.size = g.width * g.height ∧
          ∀ i < g.width, ∀ j < g.height, i + j * g.width < g.samples.size := by
  constructor
  · simp only [construct_eq_ok_iff, Geometry.valid_iff, exists_and_left, exists_eq, and_true]
  · intro g hg
    obtain ⟨hvalid, rfl⟩ := construct_eq_ok_iff.mp hg
    have hconsistent : Grid.Consistent
        ⟨name, none, none, geometry, samples, e.discontinuity samples⟩ := ⟨hvalid⟩
    exact ⟨⟨rfl, rfl⟩, hconsistent.size_eq, fun i hi j hj => hconsistent.index_lt hi hj⟩

/-- A grid that is granted, and sides whose product is `2 ^ 64`: these are not taken for a grid
without samples. -/
theorem construct_consistent_iff_square :
    (∃ g, (angles true).construct "azimuth" (⟨⟨2, 0.5, 10⟩, ⟨2, 0.5, 10⟩⟩ : Geometry Float)
        #[350, 10, 350, 10] = .ok g) ∧
      ¬ ∃ g, plain.construct "overflowing"
        (⟨⟨4294967296, 0.5, 1⟩, ⟨4294967296, 0.5, 1⟩⟩ : Geometry Float) #[] = .ok g := by
  obtain ⟨hgranted, -⟩ := (angles true).construct_consistent_iff "azimuth"
    (⟨⟨2, 0.5, 10⟩, ⟨2, 0.5, 10⟩⟩ : Geometry Float) #[350, 10, 350, 10]
  obtain ⟨hrefused, -⟩ := plain.construct_consistent_iff "overflowing"
    (⟨⟨4294967296, 0.5, 1⟩, ⟨4294967296, 0.5, 1⟩⟩ : Geometry Float) #[]
  constructor
  · refine hgranted.mpr ⟨?_, by decide, by decide⟩
    constructor <;> decide +kernel
  · intro h
    obtain ⟨-, hsize, -⟩ := hrefused.mp h
    cases hsize

/-- Where the product of the sides is no word, the request breaks off. -/
theorem construct_of_limit_le (e : Entry) (name : String) {geometry : Geometry α}
    (hw : 2 ≤ geometry.x.points) (hh : 2 ≤ geometry.y.points)
    (h : Index.limit ≤ geometry.sampleCount) (samples : Array α) :
    e.construct name geometry samples =
      .error (.breach (.product geometry.x.points geometry.y.points)) := by
  rw [construct_eq_build, Grid.build, Geometry.validate_of_limit_le hw hh h]
  rfl

end Entry

end TiePoints
