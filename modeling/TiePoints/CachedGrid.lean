import TiePoints.Request

/-!
# Grids that remember

Component grids and fits are costly, so a grid in use keeps what it has
computed in three cells.  A cell is filled when a request first needs it, and
stays empty if a fit fails.  A change of where angles wrap empties the cell of
the component grids, a release empties all cells, and a copy starts with empty
ones.  `Coherent` says that a filled cell holds what would be computed now; the
cells are then not visible in any reply.
-/

namespace TiePoints

structure CachedGrid (α : Type) where
  grid : Grid α
  components : Option (Components α)
  parabolas : Option (Array (Parabola α))
  surface : Option (Surface α)
  deriving DecidableEq, Repr

variable {α : Type}

def Grid.fresh (g : Grid α) : CachedGrid α := ⟨g, none, none, none⟩

namespace CachedGrid

def release (c : CachedGrid α) : CachedGrid α := c.grid.fresh

def setDiscontinuity (c : CachedGrid α) (d : Discontinuity) : CachedGrid α :=
  { c with
    grid := c.grid.withDiscontinuity d
    components := if d = c.grid.discontinuity then c.components else none }

variable [Scalar α] [Circular α] [Decomposition α]

/-- The sampler that takes from the cells what they hold. -/
def sampler (c : CachedGrid α) : Sampler α :=
  { grid := c.grid
    components := match c.components with
      | some parts => .pure parts
      | none => .mk fun _ => c.grid.components
    parabolas := match c.parabolas with
      | some fits => .pure (.ok fits)
      | none => .mk fun _ => c.grid.fitRows
    surface := match c.surface with
      | some fit => .pure (.ok fit)
      | none => .mk fun _ => c.grid.fitSurface }

/-- Fills the cell that an interpolant of the mode is made from. -/
def remember (c : CachedGrid α) : Mode → CachedGrid α
  | .bilinear =>
    if c.grid.discontinuity.isAngular then { c with components := some c.sampler.components.get }
    else c
  | .quadratic =>
    match c.sampler.parabolas.get with
    | .ok fits => { c with parabolas := some fits }
    | .error _ => c
  | .biquadratic =>
    match c.sampler.surface.get with
    | .ok fit => { c with surface := some fit }
    | .error _ => c

/-- The state that the request leaves once the cells it needs are filled. -/
def after (c : CachedGrid α) : Request α → CachedGrid α
  | .setDiscontinuity d => c.setDiscontinuity d
  | .release => c.release
  | .copy => c.grid.fresh
  | r => match r.mode? c.grid with
    | some m => c.remember m
    | none => c

/-- Replies to a request, and gives the state behind it.  The cells that the
request needs are filled first, so that the reply takes them from there. -/
def serve (c : CachedGrid α) (r : Request α) : Except (Error α) (Answer α) × CachedGrid α :=
  let next := c.after r
  (next.sampler.reply r, next)

def run (c : CachedGrid α) : List (Request α) → List (Except (Error α) (Answer α)) × CachedGrid α
  | [] => ([], c)
  | r :: rest =>
    let (answer, next) := c.serve r
    let (answers, last) := next.run rest
    (answer :: answers, last)

/-- Every filled cell holds what would be computed now. -/
structure Coherent (c : CachedGrid α) : Prop where
  components : ∀ parts, c.components = some parts → parts = c.grid.components
  parabolas : ∀ fits, c.parabolas = some fits → c.grid.fitRows = .ok fits
  surface : ∀ fit, c.surface = some fit → c.grid.fitSurface = .ok fit

theorem coherent_fresh (g : Grid α) : g.fresh.Coherent where
  components _ h := nomatch (show (none : Option (Components α)) = some _ from h)
  parabolas _ h := nomatch (show (none : Option (Array (Parabola α))) = some _ from h)
  surface _ h := nomatch (show (none : Option (Surface α)) = some _ from h)

/-- What is remembered cannot be told from what is computed. -/
theorem Coherent.sampler_eq {c : CachedGrid α} (h : c.Coherent) :
    c.sampler = c.grid.sampler := by
  obtain ⟨grid, components, parabolas, surface⟩ := c
  obtain ⟨hc, hp, hs⟩ := h
  unfold sampler Grid.sampler
  congr 1
  · cases components with
    | none => rfl
    | some parts => exact congrArg Thunk.pure (hc parts rfl)
  · cases parabolas with
    | none => rfl
    | some fits => exact congrArg Thunk.pure (hp fits rfl).symm
  · cases surface with
    | none => rfl
    | some fit => exact congrArg Thunk.pure (hs fit rfl).symm

end CachedGrid

end TiePoints
