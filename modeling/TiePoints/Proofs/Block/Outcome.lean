import TiePoints.Proofs.Block.PointQueries
import TiePoints.Proofs.Result

/-!
# How fills end

On a consistent grid a point query fails only if the interpolant that it asks
does not come about.  Whether a fill of a block with pixels succeeds, and with
which failure it ends otherwise, is therefore settled before the first pixel and
depends on the mode and the width of the block alone.
-/

namespace TiePoints

variable {α : Type} [Scalar α]

/-- Rows are fitted once the tables of their systems and of their coefficients are laid out. -/
theorem Grid.fitRows_eq_ok [Decomposition α] {g : Grid α} {fits : Array (Parabola α)} :
    g.fitRows = .ok fits ↔
      ((layOut g.width 3 : Except (Error α) Unit) = .ok () ∧
        (layOut g.height 3 : Except (Error α) Unit) = .ok ()) ∧
      ∃ rows, (List.range g.height).mapM g.fitRow = .ok rows ∧ rows.toArray = fits := by
  simp only [fitRows, bind_eq_ok]
  constructor
  · rintro ⟨_, hdesign, _, htable, rows, hrows, h⟩
    exact ⟨⟨hdesign, htable⟩, rows, hrows, Except.ok.inj h⟩
  · rintro ⟨⟨hdesign, htable⟩, rows, hrows, rfl⟩
    exact ⟨_, hdesign, _, htable, rows, hrows, rfl⟩

theorem Grid.size_of_fitRows_eq_ok [Decomposition α] {g : Grid α} {fits : Array (Parabola α)}
    (h : g.fitRows = .ok fits) : fits.size = g.height := by
  obtain ⟨-, rows, hrows, rfl⟩ := fitRows_eq_ok.mp h
  simpa using length_of_mapM_eq_ok hrows

/-- On a consistent grid the samples are in place of the tie points that a surface is fitted to. -/
theorem Grid.Consistent.fitSurface_eq [Decomposition α] {g : Grid α} (h : g.Consistent) :
    g.fitSurface = layOut g.samples.size 6 >>= fun _ =>
      (leastSquares (g.geometry.surfaceDesign g.samples.size) g.samples).map .ofVector := by
  have hcount : g.geometry.countSamples = .ok g.samples.size :=
    Index.mul_eq_ok_iff.mpr ⟨lt_of_eq_of_lt h.size_eq.symm h.size_lt, h.size_eq.symm⟩
  rw [fitSurface, hcount]
  simp only [bind, Except.bind]
  cases (layOut g.samples.size 6 : Except (Error α) Unit) with
  | error e => rfl
  | ok u => cases leastSquares (g.geometry.surfaceDesign g.samples.size) g.samples <;> rfl

variable [Circular α] [Decomposition α]

/-- Where an interpolant comes from. -/
theorem Grid.interpolant_cases {g : Grid α} {m : Mode} {i : Interpolant α}
    (h : g.sampler.interpolant m = .ok i) :
    i = g.sampler.mixing ∨ (∃ fits, g.fitRows = .ok fits ∧ i = .rows g.geometry.y fits) ∨
      ∃ fit, g.fitSurface = .ok fit ∧ i = .surface fit := by
  cases m with
  | bilinear => exact .inl (Except.ok.inj h).symm
  | quadratic =>
      rw [Sampler.interpolant, parabolas_sampler] at h
      cases hfits : g.fitRows with
      | error e => simp [hfits, Except.map] at h
      | ok fits =>
          rw [hfits] at h
          exact .inr (.inl ⟨fits, rfl, (Except.ok.inj h).symm⟩)
  | biquadratic =>
      rw [Sampler.interpolant, surface_sampler] at h
      cases hfit : g.fitSurface with
      | error e => simp [hfit, Except.map] at h
      | ok fit =>
          rw [hfit] at h
          exact .inr (.inr ⟨fit, rfl, (Except.ok.inj h).symm⟩)

namespace Grid.Consistent

variable {g : Grid α}

omit [Circular α] in
/-- The row parabola for a place is among the fits. -/
theorem pointBefore_lt_size (h : g.Consistent) {fits : Array (Parabola α)}
    (hfits : g.fitRows = .ok fits) (y : α) : g.geometry.y.pointBefore y < fits.size := by
  rw [size_of_fitRows_eq_ok hfits]
  exact Axis.pointBefore_lt (Nat.lt_of_lt_of_le Nat.two_pos h.height_ge) y

theorem exists_value (h : g.Consistent) (x y : α) : ∃ v, g.sampler.valueAt x y = .ok v := by
  by_cases ha : g.discontinuity.isAngular
  · rw [Sampler.valueAt_of_isAngular ha]
    exact h.exists_components_mixAtPlace _ x y
  · rw [Sampler.valueAt_of_not_isAngular ha]
    exact h.exists_mixAtPlace x y

/-- An interpolant that has come about answers at every place. -/
theorem exists_valueAt (h : g.Consistent) {m : Mode} {i : Interpolant α}
    (hi : g.sampler.interpolant m = .ok i) (x y : α) : ∃ v, i.valueAt x y = .ok v := by
  obtain rfl | ⟨fits, hfits, rfl⟩ | ⟨fit, -, rfl⟩ := interpolant_cases hi
  · exact h.exists_value x y
  · have hlt := h.pointBefore_lt_size hfits y
    refine ⟨fits[g.geometry.y.pointBefore y].eval x, ?_⟩
    simp [Interpolant.valueAt, Array.getElem?_eq_getElem hlt]
  · exact ⟨_, rfl⟩

end Grid.Consistent

/-! ## Readiness -/

/-- Whether the pixels of a block of this width can be asked for at all. -/
def Sampler.readiness (s : Sampler α) (m : Mode) (width : Nat) : Except (Error α) Unit :=
  if m.isPolynomial then (s.interpolant m).map fun _ => ()
  else if Index.storageLimit ≤ Grid.cellBytes * width then .error (.breach (.cellTable width))
  else .ok ()

namespace Grid.Consistent

variable {g : Grid α}

omit [Circular α] [Decomposition α] in
/-- A separable scan fails only if its table of cells cannot be stored. -/
theorem outcome_fillMix (h : g.Consistent) (r : Region) (buffer : Array α) :
    (g.fillMix r buffer).outcome =
      if Index.storageLimit ≤ cellBytes * r.width then .error (.breach (.cellTable r.width))
      else .ok () := by
  unfold fillMix
  by_cases hw : r.width = 0
  · rw [if_pos hw, hw, if_neg (by decide)]
    rfl
  rw [if_neg hw]
  split_ifs
  · rfl
  · rfl
  · rw [mixWrites_eq_scan]
    exact Region.outcome_write_scan fun _ _ => h.exists_mixAtPlace _ _

omit [Decomposition α] in
theorem outcome_fillComponents (h : g.Consistent) (r : Region) (d : Discontinuity)
    (buffer : Array α) :
    (g.components.fill d r buffer).outcome =
      if Index.storageLimit ≤ cellBytes * r.width then .error (.breach (.cellTable r.width))
      else .ok () := by
  have hsin := h.components.1.outcome_fillMix r (Array.replicate r.count Scalar.zero)
  have hcos := h.components.2.outcome_fillMix r (Array.replicate r.count Scalar.zero)
  split_ifs at hsin hcos ⊢
  · simp only [Components.fill, hsin]
    rfl
  · exact Components.outcome_fill_eq_ok_iff.mpr ⟨hsin, hcos⟩

/-- A fill that asks for its pixels ends as its readiness says.  Polynomials are not asked for if
the block has no pixel. -/
theorem outcome_fill (h : g.Consistent) {m : Mode} {r : Region} {buffer : Array α}
    (hcheck : r.InRange ∧ r.count ≤ buffer.size) (hr : m.isPolynomial → ¬ r.isEmpty) :
    (g.sampler.fill m r buffer).outcome = g.sampler.readiness m r.width := by
  rw [Sampler.fill_of_checkFill (Region.checkFill_eq_ok_iff.mpr hcheck), Sampler.readiness]
  by_cases hm : m.isPolynomial
  · rw [if_pos hm, if_neg (hr hm), if_pos hm]
    cases hi : g.sampler.interpolant m with
    | error e =>
        have hwrites : pixelWrites (.error e : Except (Error α) (Interpolant α)) r =
            r.scan fun _ _ => .error e := rfl
        rw [hwrites, Region.write_scan_error (hr hm)]
        rfl
    | ok i => exact Region.outcome_write_scan fun _ _ => h.exists_valueAt hi _ _
  · rw [if_neg hm, if_neg hm]
    by_cases ha : g.sampler.grid.discontinuity.isAngular
    · rw [if_pos ha]
      exact h.outcome_fillComponents r _ buffer
    · rw [if_neg ha]
      exact h.outcome_fillMix r buffer

end Grid.Consistent

end TiePoints
