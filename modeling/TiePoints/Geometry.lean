import TiePoints.Axis

/-!
# Placement of a grid in the scene

`Geometry.Valid n` is what a grid with `n` samples has to satisfy, and
`Geometry.validate n` is the check that names the first condition to fail.  The
check counts the tie points in words; where `sampleCount` is no word it breaks
off, and no grid comes about.
-/

namespace TiePoints

structure Geometry (α : Type) where
  x : Axis α
  y : Axis α
  deriving DecidableEq, Repr

/-- Where a scene coordinate falls: a cell along each axis. -/
structure Lookup (α : Type) where
  column : Cell α
  row : Cell α
  deriving DecidableEq, Repr

namespace Geometry

variable {α : Type} [Scalar α]

/-- The number of tie points. -/
def sampleCount (g : Geometry α) : Nat := g.x.points * g.y.points

/-- The number of tie points, counted in words. -/
def countSamples (g : Geometry α) : Except (Error α) Nat := Index.mul g.x.points g.y.points

def scene (g : Geometry α) : Region := ⟨0, 0, g.x.sceneLength, g.y.sceneLength⟩

def validate (g : Geometry α) (samples : Nat) : Except (Error α) Unit :=
  if g.x.points < 2 ∨ g.y.points < 2 then
    .error (.geometry (.tooFewPoints g.x.points g.y.points))
  else do
    let required ← g.countSamples
    if samples ≠ required then
      .error (.geometry (.sampleCount samples g.x.points g.y.points))
    else if ¬ g.x.hasPositiveSpacing then
      .error (.geometry (.spacing .x g.x.spacing))
    else if ¬ g.y.hasPositiveSpacing then
      .error (.geometry (.spacing .y g.y.spacing))
    else if ¬ (Scalar.isFinite g.x.offset && Scalar.isFinite g.y.offset) then
      .error (.geometry (.offsets g.x.offset g.y.offset))
    else .ok ()

structure Valid (g : Geometry α) (samples : Nat) : Prop where
  width : 2 ≤ g.x.points
  height : 2 ≤ g.y.points
  samples_eq : samples = g.sampleCount
  samples_lt : samples < Index.limit
  spacing_x : g.x.hasPositiveSpacing
  spacing_y : g.y.hasPositiveSpacing
  offset_x : Scalar.isFinite g.x.offset
  offset_y : Scalar.isFinite g.y.offset

theorem validate_eq_ok_iff {g : Geometry α} {n : Nat} : g.validate n = .ok () ↔ g.Valid n := by
  constructor
  · intro h
    unfold validate countSamples at h
    split at h
    · cases h
    · rename_i hpoints
      cases hcount : (Index.mul g.x.points g.y.points : Except (Error α) Nat) with
      | error e =>
        rw [hcount] at h
        cases h
      | ok required =>
        obtain ⟨hlt, rfl⟩ := Index.mul_eq_ok_iff.1 hcount
        rw [hcount] at h
        simp only [bind, Except.bind] at h
        repeat' split at h <;> try cases h
        rename_i hsamples hx hy hoffsets
        simp only [Decidable.not_not, Bool.and_eq_true] at hsamples hx hy hoffsets
        exact ⟨by omega, by omega, hsamples, hsamples ▸ hlt, hx, hy, hoffsets.1, hoffsets.2⟩
  · rintro ⟨hw, hh, hcount, hlt, hx, hy, hox, hoy⟩
    have hmul : g.countSamples = .ok n :=
      Index.mul_eq_ok_iff.2 ⟨lt_of_eq_of_lt hcount.symm hlt, hcount.symm⟩
    unfold validate
    rw [if_neg (by omega), hmul]
    simp only [bind, Except.bind]
    rw [if_neg (not_not_intro rfl), if_neg (not_not_intro hx), if_neg (not_not_intro hy),
      if_neg (by rw [hox, hoy]; decide)]

/-- Tie points that cannot be counted in words end the check. -/
theorem validate_of_limit_le {g : Geometry α} (hw : 2 ≤ g.x.points) (hh : 2 ≤ g.y.points)
    (h : Index.limit ≤ g.sampleCount) (n : Nat) :
    g.validate n = .error (.breach (.product g.x.points g.y.points)) := by
  have hmul : g.countSamples = .error (.breach (.product g.x.points g.y.points)) :=
    Index.mul_eq_of_le h
  unfold validate
  rw [if_neg (by omega), hmul]
  rfl

def lookup (g : Geometry α) (x y : α) : Lookup α := ⟨g.x.cell x, g.y.cell y⟩

end Geometry

end TiePoints
