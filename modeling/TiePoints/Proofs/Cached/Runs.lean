import TiePoints.CachedGrid
import TiePoints.Grid.Derived
import TiePoints.LeastSquares.SingularValues
import TiePoints.Proofs.Grid.Admission

/-!
# Runs of requests to a grid that remembers

A request leaves the grid as it is, apart from where its angles wrap, and keeps
its cells coherent: a cell is filled with what would be computed now, and the
only change of the grid that a filled cell could miss empties the cell that
depends on it.  By induction this holds behind every run, so that every reply is
the reply of a grid that has just been built and remembers nothing.
-/

namespace TiePoints

variable {α : Type}

/-- Where angles wrap once the request is served. -/
def Request.wrap (d : Discontinuity) : Request α → Discontinuity
  | .setDiscontinuity d' => d'
  | _ => d

/-- Where angles wrap behind a run of requests. -/
def Request.wrapAfter (d : Discontinuity) (rs : List (Request α)) : Discontinuity :=
  rs.foldl Request.wrap d

@[simp] theorem Request.wrapAfter_cons (d : Discontinuity) (r : Request α)
    (rs : List (Request α)) : wrapAfter d (r :: rs) = wrapAfter (r.wrap d) rs := rfl

namespace Grid

@[simp] theorem withDiscontinuity_withDiscontinuity (g : Grid α) (d d' : Discontinuity) :
    (g.withDiscontinuity d).withDiscontinuity d' = g.withDiscontinuity d' := rfl

@[simp] theorem discontinuity_withDiscontinuity (g : Grid α) (d : Discontinuity) :
    (g.withDiscontinuity d).discontinuity = d := rfl

end Grid

variable [Scalar α] [Circular α] [Decomposition α]

namespace CachedGrid

/-! ## One request -/

omit [Scalar α] [Circular α] [Decomposition α] in
@[simp] theorem grid_fresh (g : Grid α) : g.fresh.grid = g := rfl

/-- All that remembering can do: fill one cell, or none if the fit fails. -/
theorem remember_cases (c : CachedGrid α) (m : Mode) :
    c.remember m = c ∨
      c.remember m = { c with components := some c.sampler.components.get } ∨
      (∃ fits, c.sampler.parabolas.get = .ok fits ∧
        c.remember m = { c with parabolas := some fits }) ∨
      ∃ fit, c.sampler.surface.get = .ok fit ∧ c.remember m = { c with surface := some fit } := by
  cases m with
  | bilinear =>
      simp only [remember]
      split
      · exact .inr (.inl rfl)
      · exact .inl rfl
  | quadratic =>
      simp only [remember]
      split
      · rename_i fits hfits
        exact .inr (.inr (.inl ⟨fits, hfits, rfl⟩))
      · exact .inl rfl
  | biquadratic =>
      simp only [remember]
      split
      · rename_i fit hfit
        exact .inr (.inr (.inr ⟨fit, hfit, rfl⟩))
      · exact .inl rfl

/-- All that a request can do to the state. -/
theorem after_cases (c : CachedGrid α) (r : Request α) :
    (∃ d, r = .setDiscontinuity d ∧ c.after r = c.setDiscontinuity d) ∨
      (∀ d, r.wrap d = d) ∧
        (c.after r = c.grid.fresh ∨ c.after r = c ∨ ∃ m, c.after r = c.remember m) := by
  cases r with
  | setDiscontinuity d => exact .inl ⟨d, rfl, rfl⟩
  | release => exact .inr ⟨fun _ => rfl, .inl rfl⟩
  | copy => exact .inr ⟨fun _ => rfl, .inl rfl⟩
  | _ =>
      refine .inr ⟨fun _ => rfl, .inr ?_⟩
      simp only [after]
      split
      · rename_i m _
        exact .inr ⟨m, rfl⟩
      · exact .inl rfl

theorem grid_remember (c : CachedGrid α) (m : Mode) : (c.remember m).grid = c.grid := by
  obtain h | h | ⟨_, _, h⟩ | ⟨_, _, h⟩ := c.remember_cases m <;> rw [h]

theorem grid_after (c : CachedGrid α) (r : Request α) :
    (c.after r).grid = c.grid.withDiscontinuity (r.wrap c.grid.discontinuity) := by
  obtain ⟨d, rfl, h⟩ | ⟨hwrap, h | h | ⟨m, h⟩⟩ := c.after_cases r
  · rw [h]
    rfl
  · rw [h, hwrap]
    rfl
  · rw [h, hwrap]
    rfl
  · rw [h, hwrap, grid_remember]
    rfl

theorem Coherent.remember {c : CachedGrid α} (h : c.Coherent) (m : Mode) :
    (c.remember m).Coherent := by
  have hsampler := h.sampler_eq
  obtain hm | hm | ⟨fits, hfits, hm⟩ | ⟨fit, hfit, hm⟩ := c.remember_cases m
  · rw [hm]
    exact h
  · rw [hm, hsampler]
    refine ⟨?_, h.parabolas, h.surface⟩
    rintro parts ⟨rfl⟩
    rfl
  · rw [hsampler] at hfits
    rw [hm]
    refine ⟨h.components, ?_, h.surface⟩
    rintro kept ⟨rfl⟩
    exact hfits
  · rw [hsampler] at hfit
    rw [hm]
    refine ⟨h.components, h.parabolas, ?_⟩
    rintro kept ⟨rfl⟩
    exact hfit

/-- Neither the component grids nor the fits depend on where angles wrap, so the cells that a
change leaves filled stay right. -/
theorem Coherent.setDiscontinuity {c : CachedGrid α} (h : c.Coherent) (d : Discontinuity) :
    (c.setDiscontinuity d).Coherent where
  components := by
    intro parts hparts
    simp only [CachedGrid.setDiscontinuity] at hparts
    split at hparts
    · exact h.components parts hparts
    · cases hparts
  parabolas := h.parabolas
  surface := h.surface

theorem Coherent.after {c : CachedGrid α} (h : c.Coherent) (r : Request α) :
    (c.after r).Coherent := by
  obtain ⟨d, rfl, hr⟩ | ⟨-, hr | hr | ⟨m, hr⟩⟩ := c.after_cases r
  · rw [hr]
    exact h.setDiscontinuity d
  · rw [hr]
    exact coherent_fresh c.grid
  · rw [hr]
    exact h
  · rw [hr]
    exact h.remember m

/-- A reply does not depend on what is remembered. -/
theorem Coherent.reply_eq {c : CachedGrid α} (h : c.Coherent) (r : Request α) :
    (c.serve r).1 = (c.grid.withDiscontinuity (r.wrap c.grid.discontinuity)).sampler.reply r := by
  rw [← grid_after, ← (h.after r).sampler_eq]
  rfl

theorem Coherent.reply_eq_fresh {c : CachedGrid α} (h : c.Coherent) (r : Request α) :
    (c.serve r).1 = (c.grid.fresh.serve r).1 := by
  rw [h.reply_eq, (coherent_fresh c.grid).reply_eq, grid_fresh]

/-- Only a change of where angles wrap changes the grid, and it never fails. -/
theorem grid_after_of_error {c : CachedGrid α} {r : Request α} {e : Error α}
    (h : (c.serve r).1 = .error e) : (c.after r).grid = c.grid := by
  rw [grid_after]
  cases r with
  | setDiscontinuity d => cases h
  | _ => rfl

/-! ## Runs -/

theorem run_cons (c : CachedGrid α) (r : Request α) (rs : List (Request α)) :
    c.run (r :: rs) =
      ((c.serve r).1 :: ((c.after r).run rs).1, ((c.after r).run rs).2) := rfl

theorem run_append (c : CachedGrid α) (rs ss : List (Request α)) :
    c.run (rs ++ ss) =
      ((c.run rs).1 ++ ((c.run rs).2.run ss).1, ((c.run rs).2.run ss).2) := by
  induction rs generalizing c with
  | nil => rfl
  | cons r rs ih => simp only [List.cons_append, run_cons, ih]

theorem Coherent.run {c : CachedGrid α} (h : c.Coherent) (rs : List (Request α)) :
    (c.run rs).2.Coherent := by
  induction rs generalizing c with
  | nil => exact h
  | cons r rs ih => exact ih (h.after r)

theorem grid_run (c : CachedGrid α) (rs : List (Request α)) :
    (c.run rs).2.grid = c.grid.withDiscontinuity (Request.wrapAfter c.grid.discontinuity rs) := by
  induction rs generalizing c with
  | nil => rfl
  | cons r rs ih =>
      rw [run_cons, Request.wrapAfter_cons, ih, grid_after]
      simp

/-- Behind any run on a grid that was built, the cells hold what would be computed now, the grid
is the one that was built up to where its angles wrap, and the next reply is that of a grid built
anew, with the wrap there is now and nothing remembered.  A request that fails changes neither
the grid nor what the cells stand for. -/
theorem run_unobservable {e : Entry} {name : String} {geometry : Geometry α} {samples : Array α}
    {built : Grid α} (hbuilt : e.construct name geometry samples = .ok built)
    (unit description : Option String) (before : List (Request α)) (r : Request α) :
    let g := { built with unit, description }
    let c := (g.fresh.run before).2
    let wrap := Request.wrapAfter g.discontinuity before
    c.Coherent ∧ c.grid = g.withDiscontinuity wrap ∧
      (∃ anew, Grid.build name geometry samples wrap = .ok anew ∧
        (c.serve r).1 = ((anew.describedAs g).fresh.serve r).1) ∧
      (∀ fault, (c.serve r).1 = .error fault →
        (c.serve r).2.grid = c.grid ∧ (c.serve r).2.Coherent) ∧
      g.fresh.run (before ++ [r]) = ((g.fresh.run before).1 ++ [(c.serve r).1], (c.serve r).2) := by
  intro g c wrap
  have hc : c.Coherent := (coherent_fresh g).run before
  have hgrid : c.grid = g.withDiscontinuity wrap := grid_run g.fresh before
  refine ⟨hc, hgrid, ?_, ?_, run_append _ _ _⟩
  · rw [Entry.construct_eq_build, Grid.build_eq_ok_iff] at hbuilt
    obtain ⟨hvalid, rfl⟩ := hbuilt
    refine ⟨_, Grid.build_eq_ok_iff.mpr ⟨hvalid, rfl⟩, ?_⟩
    rw [hc.reply_eq_fresh, hgrid]
    rfl
  · intro fault hfault
    exact ⟨grid_after_of_error hfault, hc.after r⟩

/-- Angles on both sides of north, asked for before and after the place where they wrap has
changed. -/
theorem run_unobservable_after_change :
    let geometry : Geometry Float := ⟨⟨2, 0.5, 10⟩, ⟨2, 0.5, 10⟩⟩
    let samples : Array Float := #[358, 2, 358, 2]
    let built : Grid Float := ⟨"azimuth", none, none, geometry, samples, .at360⟩
    let changed : Grid Float := ⟨"azimuth", some "deg", none, geometry, samples, .at180⟩
    let before : List (Request Float) :=
      [.valueAt 5.5 0.5, .surface, .setDiscontinuity .at180, .setPixel 0 0 1]
    let c := ({ built with unit := some "deg" }.fresh.run before).2
    (Entry.wrapping .at360).construct "azimuth" geometry samples = .ok built ∧
      c.Coherent ∧ c.grid = changed ∧
      (c.serve (.valueAt 5.5 0.5)).1 = (changed.fresh.serve (.valueAt 5.5 0.5)).1 := by
  intro geometry samples built changed before c
  have hvalid : geometry.Valid samples.size := by
    constructor <;> decide +kernel
  have hbuilt : (Entry.wrapping .at360).construct "azimuth" geometry samples = .ok built :=
    Grid.build_eq_ok_iff.mpr ⟨hvalid, rfl⟩
  obtain ⟨hc, hgrid, ⟨anew, hanew, hreply⟩, -⟩ :=
    run_unobservable hbuilt (some "deg") none before (.valueAt 5.5 0.5)
  obtain ⟨-, rfl⟩ := Grid.build_eq_ok_iff.mp hanew
  exact ⟨hbuilt, hc, hgrid, hreply⟩

end CachedGrid

end TiePoints
