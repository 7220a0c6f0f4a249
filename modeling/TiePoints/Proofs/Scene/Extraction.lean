import TiePoints.Proofs.Block.Atomicity
import TiePoints.Proofs.Scene.Chunks

/-!
# How extractions end

A block is extracted in four layers, and each of them can refuse it: its extent,
the storage for its values, the fill, and the shape of the raster.  A block with
pixels whose values can be stored has sides that suit any raster, so the shape is
refused only where one side is zero and the other is beyond what storage is
measured in.

The fill is the one layer that does not only refuse.  The table of cells along a
row is larger than the values of a short block and is laid out without asking,
and a system whose singular values are undefined has no answer.
-/

namespace TiePoints

variable {α : Type}

/-! ## Layers -/

/-- The sides of a block whose values can be stored suit a raster, unless the block is empty and
one of them is too long. -/
theorem Region.sides_lt_iff {r : Region} (h : r.IsStorable) :
    max r.height 1 * max r.width 1 < Index.storageLimit ↔
      (r.isEmpty → r.width < Index.storageLimit ∧ r.height < Index.storageLimit) := by
  have hlimit : Index.storageLimit = 9223372036854775808 := rfl
  have hnone : max 0 1 = 1 := rfl
  obtain ⟨x, y, width, height⟩ := r
  rcases Nat.eq_zero_or_pos width with rfl | hw
  · simp only [isEmpty, beq_self_eq_true, Bool.true_or, forall_const, hnone, Nat.mul_one]
    omega
  rcases Nat.eq_zero_or_pos height with rfl | hh
  · simp only [isEmpty, beq_self_eq_true, Bool.or_true, forall_const, hnone, Nat.one_mul]
    omega
  · have hempty : ¬ (⟨x, y, width, height⟩ : Region).isEmpty := by
      simp [isEmpty, hw.ne', hh.ne']
    have hcount : 8 * (width * height) < Index.storageLimit := h
    rw [Nat.max_eq_left hw, Nat.max_eq_left hh, Nat.mul_comm]
    exact iff_of_true (by omega) fun he => absurd he hempty

theorem Region.storableCount_of_not_inRange {r : Region} (h : ¬ r.InRange) :
    (r.storableCount : Except (Error α) Nat) = .error (.geometry (.blockBeyondRange r)) := by
  simp [storableCount, pixelCount_eq, h, bind, Except.bind]

theorem Region.storableCount_of_not_isStorable {r : Region} (h : r.InRange)
    (hs : ¬ r.IsStorable) :
    (r.storableCount : Except (Error α) Nat) = .error (.geometry (.storage r.count)) := by
  simp [storableCount, pixelCount_eq, h, hs, bind, Except.bind]

theorem Region.storableCount_of_isStorable {r : Region} (h : r.InRange) (hs : r.IsStorable) :
    (r.storableCount : Except (Error α) Nat) = .ok r.count := by
  simp [storableCount, pixelCount_eq, h, hs, bind, Except.bind]

variable [Scalar α] [Circular α]

namespace Sampler

variable {s : Sampler α} {m : Mode} {r : Region} {e : Error α}

theorem block_of_storableCount_error (h : (r.storableCount : Except (Error α) Nat) = .error e) :
    s.block m r = .error e :=
  bind_eq_error.mpr (.inl h)

theorem block_eq_ofValues (hr : r.InRange) (hs : r.IsStorable) :
    s.block m r = (s.fill m r (Array.replicate r.count Scalar.zero)).result >>=
      Raster.ofValues r.height r.width := by
  rw [block, Region.storableCount_of_isStorable hr hs]
  rfl

theorem block_of_fill_error (hr : r.InRange) (hs : r.IsStorable)
    (h : (s.fill m r (Array.replicate r.count Scalar.zero)).outcome = .error e) :
    s.block m r = .error e := by
  rw [block_eq_ofValues hr hs]
  exact bind_eq_error.mpr (.inl (map_eq_error.mpr h))

theorem block_of_fill_ok (hr : r.InRange) (hs : r.IsStorable)
    (h : (s.fill m r (Array.replicate r.count Scalar.zero)).outcome = .ok ()) :
    s.block m r = if r.isEmpty → r.width < Index.storageLimit ∧ r.height < Index.storageLimit then
      .ok ⟨r.height, r.width, (s.fill m r (Array.replicate r.count Scalar.zero)).buffer⟩
    else .error (.geometry .shape) := by
  rw [block_eq_ofValues hr hs, Filled.result, h]
  exact if_congr (Region.sides_lt_iff hs) rfl rfl

/-- An extraction breaks a promise only where its fill does. -/
theorem block_eq_breach_iff {cause : Breach} :
    s.block m r = .error (.breach cause) ↔ r.InRange ∧ r.IsStorable ∧
      (s.fill m r (Array.replicate r.count Scalar.zero)).outcome = .error (.breach cause) := by
  constructor
  · intro h
    by_cases hr : r.InRange
    · by_cases hs : r.IsStorable
      · refine ⟨hr, hs, ?_⟩
        cases hfill : (s.fill m r (Array.replicate r.count Scalar.zero)).outcome with
        | error e =>
            rw [block_of_fill_error hr hs hfill] at h
            rw [Except.error.inj h]
        | ok =>
            rw [block_of_fill_ok hr hs hfill] at h
            split at h <;> cases h
      · rw [block_of_storableCount_error (Region.storableCount_of_not_isStorable hr hs)] at h
        cases h
    · rw [block_of_storableCount_error (Region.storableCount_of_not_inRange hr)] at h
      cases h
  · rintro ⟨hr, hs, hfill⟩
    exact block_of_fill_error hr hs hfill

end Sampler

/-! ## Endings -/

namespace Grid

variable [Decomposition α]

/-- The ways in which an extraction of a block ends, in the order in which they are tried. -/
structure BlockEnds (g : Grid α) (m : Mode) (r : Region) (result : Except (Error α) (Raster α)) :
    Prop where
  beyondRange : ¬ r.InRange → result = .error (.geometry (.blockBeyondRange r))
  storage : r.InRange → ¬ r.IsStorable → result = .error (.geometry (.storage r.count))
  fitFailed : r.InRange → r.IsStorable → m.isPolynomial → ¬ r.isEmpty →
    ∀ e, g.fitOutcome m = .error e → result = .error e
  cellTable : r.InRange → r.IsStorable → ¬ m.isPolynomial →
    Index.storageLimit ≤ cellBytes * r.width → result = .error (.breach (.cellTable r.width))
  shape : r.InRange → r.IsStorable →
    (¬ m.isPolynomial → cellBytes * r.width < Index.storageLimit) → r.isEmpty →
    Index.storageLimit ≤ r.width ∨ Index.storageLimit ≤ r.height →
    result = .error (.geometry .shape)
  extracted : r.InRange → r.IsStorable →
    (m.isPolynomial → ¬ r.isEmpty → g.fitOutcome m = .ok ()) →
    (¬ m.isPolynomial → cellBytes * r.width < Index.storageLimit) →
    (r.isEmpty → r.width < Index.storageLimit ∧ r.height < Index.storageLimit) →
    ∃ raster, result = .ok raster ∧ raster.height = r.height ∧ raster.width = r.width ∧
      raster.values.size = r.count ∧
      ∀ row < r.height, ∀ col < r.width, ∃ v,
        raster.values[row * r.width + col]? = some v ∧
          g.sampler.valueAtMode (pixelCentre (r.x + col)) (pixelCentre (r.y + row)) m = .ok v

namespace Consistent

variable {g : Grid α}

/-- How the fill of a block ends whose values can be stored. -/
theorem outcome_fill_blank (h : g.Consistent) {r : Region} (hr : r.InRange) (m : Mode) :
    (g.sampler.fill m r (Array.replicate r.count Scalar.zero)).outcome =
      if m.isPolynomial then (if r.isEmpty then .ok () else g.fitOutcome m)
      else if Index.storageLimit ≤ cellBytes * r.width then .error (.breach (.cellTable r.width))
      else .ok () :=
  h.outcome_fill_eq ⟨hr, by simp⟩

theorem outcome_fill_blank_eq_ok (h : g.Consistent) {r : Region} (hr : r.InRange) {m : Mode}
    (hfit : m.isPolynomial → ¬ r.isEmpty → g.fitOutcome m = .ok ())
    (htable : ¬ m.isPolynomial → cellBytes * r.width < Index.storageLimit) :
    (g.sampler.fill m r (Array.replicate r.count Scalar.zero)).outcome = .ok () := by
  rw [h.outcome_fill_blank hr]
  split_ifs with hm hempty hwide
  · rfl
  · exact hfit hm hempty
  · exact absurd (htable hm) (Nat.not_lt.mpr hwide)
  · rfl

theorem blockEnds (h : g.Consistent) (m : Mode) (r : Region) :
    g.BlockEnds m r (g.sampler.block m r) where
  beyondRange hr :=
    Sampler.block_of_storableCount_error (Region.storableCount_of_not_inRange hr)
  storage hr hs :=
    Sampler.block_of_storableCount_error (Region.storableCount_of_not_isStorable hr hs)
  fitFailed := by
    intro hr hs hm hempty e he
    apply Sampler.block_of_fill_error hr hs
    rw [h.outcome_fill_blank hr, if_pos hm, if_neg hempty, he]
  cellTable := by
    intro hr hs hm hwide
    apply Sampler.block_of_fill_error hr hs
    rw [h.outcome_fill_blank hr, if_neg hm, if_pos hwide]
  shape := by
    intro hr hs htable hempty hlong
    have hok := h.outcome_fill_blank_eq_ok hr (fun _ hne => absurd hempty hne) htable
    rw [Sampler.block_of_fill_ok hr hs hok, if_neg]
    intro hsides
    obtain ⟨hw, hh⟩ := hsides hempty
    omega
  extracted := by
    intro hr hs hfit htable hsides
    have hblock := Sampler.block_of_fill_ok hr hs (h.outcome_fill_blank_eq_ok hr hfit htable)
    rw [if_pos hsides] at hblock
    obtain ⟨-, hshows⟩ := Sampler.shows_block hblock
    refine ⟨_, hblock, rfl, rfl, hshows.size_eq.trans Array.size_replicate, ?_⟩
    intro row hrow col hcol
    obtain ⟨v, hv, hget⟩ := hshows.pixel row hrow col hcol
    exact ⟨v, hget, hv⟩

/-- A block is refused for its extent and then for its storage; then the fit fails that its pixels
ask for, then the shape is refused, and otherwise the raster shows the point queries at the centres
of the pixels.  A promise is broken instead of a refusal for a fit with undefined singular values,
and for a table of cells that cannot be stored, even if the block has no pixel. -/
theorem block_ends (h : g.Consistent) (m : Mode) (r : Region) :
    g.BlockEnds m r (g.sampler.block m r) ∧
      (∀ e, g.fitOutcome m = .error e → e.IsUnsolvable) ∧
      ((∃ cause, g.sampler.block m r = .error (.breach cause)) ↔
        r.InRange ∧ r.IsStorable ∧
          if m.isPolynomial then
            ¬ r.isEmpty ∧ ∃ cause, g.fitOutcome m = .error (.breach cause)
          else Index.storageLimit ≤ cellBytes * r.width) := by
  refine ⟨h.blockEnds m r, fun _ => h.isUnsolvable_of_fitOutcome, ?_⟩
  simp only [Sampler.block_eq_breach_iff, exists_and_left]
  refine and_congr_right fun hr => and_congr_right fun _ => ?_
  simp only [h.outcome_fill_blank hr]
  split_ifs <;> simp_all

/-- A block of `2 ^ 64` pixels, one whose values cannot be stored, a column without width of
`2 ^ 63` rows, and two pixels that come about. -/
theorem block_ends_square :
    square.sampler.block .bilinear ⟨0, 0, 4294967296, 4294967296⟩ =
        .error (.geometry (.blockBeyondRange ⟨0, 0, 4294967296, 4294967296⟩)) ∧
      square.sampler.block .quadratic ⟨0, 0, 1152921504606846976, 1⟩ =
        .error (.geometry (.storage 1152921504606846976)) ∧
      square.sampler.block .bilinear ⟨0, 0, 0, 9223372036854775808⟩ = .error (.geometry .shape) ∧
      ∃ raster, square.sampler.block .bilinear ⟨1, 0, 2, 1⟩ = .ok raster ∧ raster.width = 2 ∧
        ∃ v, raster.values[1]? = some v ∧
          square.sampler.valueAtMode (pixelCentre 2) (pixelCentre 0) .bilinear = .ok v := by
  obtain ⟨hrange, -, -⟩ := block_ends consistent_square .bilinear ⟨0, 0, 4294967296, 4294967296⟩
  obtain ⟨hstorage, -, -⟩ := block_ends consistent_square .quadratic ⟨0, 0, 1152921504606846976, 1⟩
  obtain ⟨hshape, -, -⟩ := block_ends consistent_square .bilinear ⟨0, 0, 0, 9223372036854775808⟩
  obtain ⟨hpixels, -, -⟩ := block_ends consistent_square .bilinear ⟨1, 0, 2, 1⟩
  refine ⟨hrange.beyondRange (by decide), hstorage.storage (by decide) (by decide),
    hshape.shape (by decide) (by decide) (by decide) (by decide) (by decide), ?_⟩
  obtain ⟨raster, hraster, -, hwidth, -, hcells⟩ :=
    hpixels.extracted (by decide) (by decide) (by decide) (by decide) (by decide)
  exact ⟨raster, hraster, hwidth, hcells 0 (by decide) 1 (by decide)⟩

/-- A raster without a row is asked for nothing and would be granted, but the cells along a row of
`2 ^ 59` pixels are too many to be laid out. -/
theorem block_wide_and_empty :
    let r : Region := ⟨0, 0, 576460752303423488, 0⟩
    square.Consistent ∧ r.InRange ∧ r.IsStorable ∧
      (r.width < Index.storageLimit ∧ r.height < Index.storageLimit) ∧
      square.sampler.block .bilinear r = .error (.breach (.cellTable 576460752303423488)) ∧
      square.sampler.block .quadratic r = .ok ⟨0, 576460752303423488, #[]⟩ := by
  intro r
  refine ⟨consistent_square, by decide, by decide, by decide, ?_, by decide +kernel⟩
  exact (consistent_square.blockEnds .bilinear r).cellTable (by decide) (by decide) (by decide)
    (by decide)

end Consistent

end Grid

end TiePoints
