import TiePoints.LeastSquares.SingularValues
import TiePoints.Proofs.Block.Scan

/-!
# Blocks and point queries

A fill shows in each pixel of its block what a point query answers at the
centre of that pixel.  The separable scan shares the cells of columns and rows
between pixels, and a block of angles is put together from two scans; both make
the same arithmetic steps for a pixel as a point query does, so the answers
agree to the last bit.
-/

namespace TiePoints

variable {α : Type} [Scalar α]

namespace Grid

/-- The separable scan is the scan of the mixtures at the centres of the pixels. -/
theorem mixWrites_eq_scan (g : Grid α) (r : Region) :
    g.mixWrites r = r.scan fun col row =>
      g.mixAtPlace (pixelCentre (r.x + col)) (pixelCentre (r.y + row)) := by
  simp only [mixWrites, Region.scan]
  congr 1
  funext row
  apply List.ext_getElem
  · simp [columnCells]
  · intro col _ _
    simp [columnCells, mixAtPlace, Geometry.lookup]

theorem shows_fillMix {g : Grid α} {r : Region} {buffer : Array α}
    (hok : (g.fillMix r buffer).outcome = .ok ()) (hsize : r.count ≤ buffer.size) :
    r.Shows (fun col row => g.mixAtPlace (pixelCentre (r.x + col)) (pixelCentre (r.y + row)))
      buffer (g.fillMix r buffer).buffer := by
  unfold fillMix at hok ⊢
  by_cases hw : r.width = 0
  · rw [if_pos hw]
    exact .of_isEmpty (by simp [Region.isEmpty, hw]) buffer
  rw [if_neg hw] at hok ⊢
  by_cases htable : Index.storageLimit ≤ cellBytes * r.width
  · simp [htable, Filled.failed] at hok
  rw [if_neg htable] at hok ⊢
  by_cases hh : r.height = 0
  · rw [if_pos hh]
    exact .of_isEmpty (by simp [Region.isEmpty, hh]) buffer
  rw [if_neg hh, mixWrites_eq_scan] at hok ⊢
  exact .write_scan hok hsize

end Grid

variable [Circular α]

namespace Components

/-- What a fill of angles leaves if both scans succeed. -/
theorem fill_eq_done {c : Components α} {d : Discontinuity} {r : Region} {buffer : Array α}
    (hsin : (c.sin.fillMix r (Array.replicate r.count Scalar.zero)).outcome = .ok ())
    (hcos : (c.cos.fillMix r (Array.replicate r.count Scalar.zero)).outcome = .ok ()) :
    c.fill d r buffer = .done (overwrite 0
      ((c.sin.fillMix r (Array.replicate r.count Scalar.zero)).buffer.zipWith d.combine
        (c.cos.fillMix r (Array.replicate r.count Scalar.zero)).buffer) buffer) := by
  simp only [fill, hsin, hcos]

theorem outcome_fill_eq_ok_iff {c : Components α} {d : Discontinuity} {r : Region}
    {buffer : Array α} :
    (c.fill d r buffer).outcome = .ok () ↔
      (c.sin.fillMix r (Array.replicate r.count Scalar.zero)).outcome = .ok () ∧
        (c.cos.fillMix r (Array.replicate r.count Scalar.zero)).outcome = .ok () := by
  constructor
  · intro h
    cases hsin : (c.sin.fillMix r (Array.replicate r.count Scalar.zero)).outcome with
    | error e => simp [fill, hsin, Filled.failed] at h
    | ok =>
        cases hcos : (c.cos.fillMix r (Array.replicate r.count Scalar.zero)).outcome with
        | error e => simp [fill, hsin, hcos, Filled.failed] at h
        | ok => exact ⟨rfl, rfl⟩
  · rintro ⟨hsin, hcos⟩
    rw [fill_eq_done hsin hcos]
    rfl

theorem buffer_fill_of_error {c : Components α} {d : Discontinuity} {r : Region}
    {buffer : Array α} {e : Error α} (h : (c.fill d r buffer).outcome = .error e) :
    (c.fill d r buffer).buffer = buffer := by
  cases hsin : (c.sin.fillMix r (Array.replicate r.count Scalar.zero)).outcome with
  | error e => simp only [fill, hsin, Filled.failed]
  | ok =>
      cases hcos : (c.cos.fillMix r (Array.replicate r.count Scalar.zero)).outcome with
      | error e => simp only [fill, hsin, hcos, Filled.failed]
      | ok =>
          rw [fill_eq_done hsin hcos] at h
          cases h

/-- A block of angles shows the directions at the centres of its pixels. -/
theorem shows_fill {c : Components α} {d : Discontinuity} {r : Region}
    {buffer : Array α} (hok : (c.fill d r buffer).outcome = .ok ())
    (hsize : r.count ≤ buffer.size) :
    r.Shows (fun col row => c.mixAtPlace d (pixelCentre (r.x + col)) (pixelCentre (r.y + row)))
      buffer (c.fill d r buffer).buffer := by
  obtain ⟨hsin, hcos⟩ := outcome_fill_eq_ok_iff.mp hok
  have hblank : r.count ≤ (Array.replicate r.count (Scalar.zero : α)).size := by simp
  have hs := Grid.shows_fillMix hsin hblank
  have hc := Grid.shows_fillMix hcos hblank
  rw [fill_eq_done hsin hcos]
  apply Region.Shows.overwrite
  · simp [hs.size_eq, hc.size_eq]
  · exact hsize
  · intro row hrow col hcol
    obtain ⟨s, hsmix, hsget⟩ := hs.pixel row hrow col hcol
    obtain ⟨t, htmix, htget⟩ := hc.pixel row hrow col hcol
    refine ⟨d.combine s t, ?_, ?_⟩
    · simp only [mixAtPlace, hsmix, htmix]
      rfl
    · simp only [Array.getElem?_zipWith, hsget, htget]

end Components

namespace Sampler

theorem valueAtMode_bilinear (s : Sampler α) (x y : α) :
    s.valueAtMode x y .bilinear = s.valueAt x y := rfl

theorem valueAt_of_isAngular {s : Sampler α} (h : s.grid.discontinuity.isAngular) (x y : α) :
    s.valueAt x y = s.components.get.mixAtPlace s.grid.discontinuity x y := by
  simp only [valueAt, mixing, if_pos h]
  rfl

theorem valueAt_of_not_isAngular {s : Sampler α} (h : ¬ s.grid.discontinuity.isAngular)
    (x y : α) : s.valueAt x y = s.grid.mixAtPlace x y := by
  simp only [valueAt, mixing, if_neg h]
  rfl

end Sampler

namespace Grid

variable [Decomposition α] {g : Grid α}

theorem valueAt_of_plain (hd : g.discontinuity = .none) (x y : α) :
    g.sampler.valueAt x y = g.mixAtPlace x y := by
  apply Sampler.valueAt_of_not_isAngular
  rw [grid_sampler, hd]
  decide

theorem valueAt_of_angular (ha : g.discontinuity.isAngular) (x y : α) :
    g.sampler.valueAt x y = (g.cornerSamples (g.geometry.lookup x y)).map fun c =>
      g.discontinuity.combine (c.mixSin (g.geometry.lookup x y))
        (c.mixCos (g.geometry.lookup x y)) :=
  (Sampler.valueAt_of_isAngular ha x y).trans (g.components_mixAtPlace _ x y)

/-- A lookup made for a place is answered as the place is: component grids inherit the geometry,
so they would look up the same cell. -/
theorem valueAtLookup_lookup (x y : α) :
    g.sampler.valueAtLookup (g.geometry.lookup x y) = g.sampler.valueAt x y := by
  by_cases ha : g.discontinuity.isAngular
  · rw [Sampler.valueAt_of_isAngular ha]
    exact if_pos ha
  · rw [Sampler.valueAt_of_not_isAngular ha]
    exact if_neg ha

end Grid

namespace Sampler

/-- A fill whose extent and buffer pass the check is one of three scans. -/
theorem fill_of_checkFill {s : Sampler α} {m : Mode} {r : Region} {buffer : Array α}
    (hcheck : (r.checkFill buffer.size : Except (Error α) Unit) = .ok ()) :
    s.fill m r buffer =
      if m.isPolynomial then
        if r.isEmpty then .done buffer else .write (pixelWrites (s.interpolant m) r) buffer
      else if s.grid.discontinuity.isAngular then
        s.components.get.fill s.grid.discontinuity r buffer
      else s.grid.fillMix r buffer := by
  simp only [fill, hcheck]

/-- A fill that succeeds shows the point queries at the centres of the pixels. -/
theorem shows_fill {s : Sampler α} {m : Mode} {r : Region} {buffer : Array α}
    (hok : (s.fill m r buffer).outcome = .ok ()) :
    r.Shows (fun col row => s.valueAtMode (pixelCentre (r.x + col)) (pixelCentre (r.y + row)) m)
      buffer (s.fill m r buffer).buffer := by
  have hcheck : (r.checkFill buffer.size : Except (Error α) Unit) = .ok () := by
    cases h : (r.checkFill buffer.size : Except (Error α) Unit) with
    | error e => simp [fill, h, Filled.failed] at hok
    | ok => rfl
  have hsize : r.count ≤ buffer.size := (Region.checkFill_eq_ok_iff.mp hcheck).2
  rw [fill_of_checkFill hcheck] at hok ⊢
  by_cases hm : m.isPolynomial
  · rw [if_pos hm] at hok ⊢
    by_cases hempty : r.isEmpty
    · rw [if_pos hempty]
      exact .of_isEmpty hempty buffer
    · rw [if_neg hempty] at hok ⊢
      exact .write_scan hok hsize
  · obtain rfl : m = .bilinear := by cases m <;> simp [Mode.isPolynomial] at hm ⊢
    rw [if_neg hm] at hok ⊢
    by_cases ha : s.grid.discontinuity.isAngular
    · rw [if_pos ha] at hok ⊢
      simpa only [valueAtMode_bilinear, valueAt_of_isAngular ha] using
        Components.shows_fill hok hsize
    · rw [if_neg ha] at hok ⊢
      simpa only [valueAtMode_bilinear, valueAt_of_not_isAngular ha] using
        Grid.shows_fillMix hok hsize

/-- A fill that succeeds keeps the size of the buffer, leaves in each pixel of the block the
very answer of the point query at its centre, and keeps all elements behind the block. -/
theorem fill_eq_point_queries {s : Sampler α} {m : Mode} {r : Region} {buffer : Array α}
    (hok : (s.fill m r buffer).outcome = .ok ()) :
    (s.fill m r buffer).buffer.size = buffer.size ∧
      (∀ row < r.height, ∀ col < r.width, ∃ v,
        s.valueAtMode (pixelCentre (r.x + col)) (pixelCentre (r.y + row)) m = .ok v ∧
          (s.fill m r buffer).buffer[row * r.width + col]? = some v) ∧
      ∀ p, r.count ≤ p → (s.fill m r buffer).buffer[p]? = buffer[p]? := by
  have hshows := shows_fill hok
  exact ⟨hshows.size_eq, hshows.pixel, hshows.beyond⟩

/-- Two pixels of a grid of angles on both sides of north, in a buffer of three. -/
theorem fill_eq_point_queries_across_north :
    let g : Grid Float :=
      ⟨"azimuth", none, none, ⟨⟨2, 0.5, 2⟩, ⟨2, 0.5, 2⟩⟩, #[358, 2, 358, 2], .at360⟩
    let filled := g.sampler.fill .bilinear ⟨1, 0, 2, 1⟩ #[9, 9, 9]
    filled.outcome = .ok () ∧ filled.buffer.size = 3 ∧
      (∀ row < 1, ∀ col < 2, ∃ v,
        g.sampler.valueAtMode (pixelCentre (1 + col)) (pixelCentre (0 + row)) .bilinear = .ok v ∧
          filled.buffer[row * 2 + col]? = some v) ∧
      ∀ p, 2 ≤ p → filled.buffer[p]? = (#[9, 9, 9] : Array Float)[p]? := by
  intro g filled
  have hok : filled.outcome = .ok () := by decide +kernel
  exact ⟨hok, fill_eq_point_queries hok⟩

end Sampler

end TiePoints
