import TiePoints.Proofs.Cached.Runs
import TiePoints.Proofs.Checked.Replies

/-!
# Lookups shared between grids

Where a place falls depends on the geometry alone, and the component grids of
angles inherit it.  A lookup made once therefore serves every grid of that
geometry, whatever its samples and wherever its angles wrap: it is answered as
the place is, to the last bit, and no differently when the component grids have
been built before.
-/

namespace TiePoints

variable {α : Type} [Scalar α] [Circular α] [Decomposition α]

/-! ## Component grids built or not -/

namespace CachedGrid

variable {c : CachedGrid α}

theorem components_sampler (h : c.components = none ∨ c.components = some c.grid.components) :
    c.sampler.components.get = c.grid.components := by
  rcases h with hempty | hbuilt
  · simp only [sampler, hempty]
    rfl
  · simp only [sampler, hbuilt]
    rfl

theorem components_remember (h : c.components = none ∨ c.components = some c.grid.components) :
    (c.remember .bilinear).sampler.components.get = c.grid.components := by
  rw [← grid_remember c .bilinear]
  apply components_sampler
  rw [grid_remember, remember]
  split_ifs
  · exact .inr (congrArg some (components_sampler h))
  · exact h

/-- What a request for a place or for a lookup is answered comes of the samples and of component
grids that are built when they are not there. -/
theorem serve_bilinear (h : c.components = none ∨ c.components = some c.grid.components) :
    (∀ x y, (c.serve (.valueAt x y)).1 = (c.grid.sampler.valueAt x y).map .scalar) ∧
      ∀ l, (c.serve (.valueAtLookup l)).1 = (c.grid.sampler.valueAtLookup l).map .scalar := by
  have hparts := components_remember h
  have hgrid : (c.remember .bilinear).sampler.grid = c.grid := grid_remember c .bilinear
  constructor
  · intro x y
    change ((c.remember .bilinear).sampler.valueAt x y).map _ = _
    rw [Sampler.valueAt, Sampler.mixing, hparts, hgrid]
    rfl
  · intro l
    change ((c.remember .bilinear).sampler.valueAtLookup l).map _ = _
    rw [Sampler.valueAtLookup, hparts, hgrid]
    rfl

end CachedGrid

/-! ## Lookups made for another grid -/

namespace Grid.Consistent

variable {made g : Grid α}

/-- A lookup that another grid of the same geometry has made for a place is answered, also in
checked steps, and the answer is the value at the place.  It is the same to a grid that has built
its component grids before and to one that has not. -/
theorem valueAtLookup_of_geometry_eq (h : g.Consistent) (hgeometry : made.geometry = g.geometry)
    (x y : α) :
    ∃ v, g.sampler.valueAtLookup (made.geometry.lookup x y) = .ok v ∧
      g.sampler.valueAt x y = .ok v ∧
      g.checkedReply (.valueAtLookup (made.geometry.lookup x y)) = .ok (.scalar v) ∧
      ∀ c : CachedGrid α, c.grid = g →
        (c.components = none ∨ c.components = some g.components) →
          (c.serve (.valueAtLookup (made.geometry.lookup x y))).1 = .ok (.scalar v) ∧
            (c.serve (.valueAt x y)).1 = .ok (.scalar v) := by
  obtain ⟨v, hv⟩ := h.exists_value x y
  have hlookup : g.sampler.valueAtLookup (made.geometry.lookup x y) = .ok v := by
    rw [hgeometry, valueAtLookup_lookup, hv]
  refine ⟨v, hlookup, hv, ?_, ?_⟩
  · have hsuited : (Request.valueAtLookup (made.geometry.lookup x y)).SuitedTo g :=
      ⟨made.geometry, x, y, congrArg (·.x.points) hgeometry, congrArg (·.y.points) hgeometry, rfl⟩
    rw [h.checkedReply_eq hsuited, Sampler.reply, hlookup]
    rfl
  · rintro c rfl hcell
    obtain ⟨hplace, hcells⟩ := CachedGrid.serve_bilinear hcell
    rw [hplace, hcells, hlookup, hv]
    exact ⟨rfl, rfl⟩

/-- A grid of latitudes looks up an undefined place for a grid of angles. -/
theorem valueAtLookup_of_geometry_eq_undefined_place :
    let geometry : Geometry Float := ⟨⟨2, 0.5, 10⟩, ⟨2, 0.5, 10⟩⟩
    let latitude : Grid Float := ⟨"latitude", none, none, geometry, #[60, 60, 59, 59], .none⟩
    let azimuth : Grid Float := ⟨"azimuth", none, none, geometry, #[358, 2, 358, 2], .at360⟩
    let built : CachedGrid Float := { azimuth.fresh with components := some azimuth.components }
    let x : Float := 0 / 0
    let y : Float := 1 / 0
    ∃ v, (azimuth.fresh.serve (.valueAtLookup (latitude.geometry.lookup x y))).1 =
        .ok (.scalar v) ∧
      (built.serve (.valueAtLookup (latitude.geometry.lookup x y))).1 = .ok (.scalar v) ∧
      (built.serve (.valueAt x y)).1 = .ok (.scalar v) := by
  intro geometry latitude azimuth built x y
  have h : azimuth.Consistent := by decide +kernel
  have hgeometry : latitude.geometry = azimuth.geometry := rfl
  obtain ⟨v, -, -, -, hserve⟩ := h.valueAtLookup_of_geometry_eq hgeometry x y
  obtain ⟨hfresh, -⟩ := hserve azimuth.fresh rfl (.inl rfl)
  exact ⟨v, hfresh, hserve built rfl (.inr rfl)⟩

end Grid.Consistent

end TiePoints
