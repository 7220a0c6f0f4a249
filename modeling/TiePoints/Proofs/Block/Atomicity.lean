import TiePoints.Proofs.Block.Outcome

/-!
# Fills that fail

A fill is refused for the extent of its block, then for the size of its buffer.
After that it can only fail as a whole: a fit that fails does so for every pixel
alike, and the table of cells is laid out before the first pixel.  So a failing
fill has written nothing, in any mode and in any format.

Two tables stand between a block that is granted and its pixels.  A fill in a
format keeps its values in a table of their own, which takes more storage than a
buffer of small pixels and may not be stored where the buffer is.  The table of
cells is laid out for blocks without a row, too, and for a wide one of them it
cannot be stored.
-/

namespace TiePoints

variable {α : Type} [Scalar α]

/-! ## Fits that fail -/

/-- Whether a system of the right size has no solution: it is degenerate, its singular values are
undefined or not found, or its tables cannot be stored. -/
def Error.IsUnsolvable {α : Type} : Error α → Prop
  | .fit .degenerate => True
  | .breach (.undefinedSystem _ _) => True
  | .breach (.coefficientTable _ _) => True
  | _ => False

theorem isUnsolvable_of_layOut {rows columns : Nat} {e : Error α}
    (h : layOut rows columns = .error e) : e.IsUnsolvable := by
  unfold layOut at h
  split at h
  · cases h
  · cases h
    trivial

variable [Decomposition α]

theorem isUnsolvable_of_leastSquares {m n : Nat} {d : Design α m n} {values : Array α}
    {e : Error α} (hsize : values.size = m) (hm : m ≠ 0) (hn : n ≠ 0)
    (h : leastSquares d values = .error e) : e.IsUnsolvable := by
  rw [leastSquares, dif_pos hsize, if_neg (not_or.mpr ⟨hm, hn⟩)] at h
  dsimp only at h
  split at h
  · cases h
    trivial
  · split at h
    · cases h
      trivial
    · cases h

namespace Grid

/-- How the fit ends that the mode asks for, if it asks for one. -/
def fitOutcome (g : Grid α) : Mode → Except (Error α) Unit
  | .bilinear => .ok ()
  | .quadratic => g.fitRows.map fun _ => ()
  | .biquadratic => g.fitSurface.map fun _ => ()

namespace Consistent

variable {g : Grid α}

theorem isUnsolvable_of_fitRow (h : g.Consistent) {r : Nat} (hr : r < g.height) {e : Error α}
    (he : g.fitRow r = .error e) : e.IsUnsolvable := by
  have hw : g.geometry.x.points ≠ 0 := Nat.ne_of_gt (Nat.lt_of_lt_of_le Nat.two_pos h.width_ge)
  rcases bind_eq_error.mp he with hvalues | ⟨values, hvalues, he⟩
  · -- the samples of a row are all there
    obtain ⟨c, hc, hsample⟩ := exists_error_of_mapM hvalues
    rw [h.sample_eq (List.mem_range.mp hc) hr] at hsample
    cases hsample
  · have hsize : values.toArray.size = g.geometry.x.points :=
      (length_of_mapM_eq_ok hvalues).trans List.length_range
    rcases bind_eq_error.mp he with hfit | ⟨coefficients, -, he⟩
    · exact isUnsolvable_of_leastSquares hsize hw (by decide) hfit
    · cases he

theorem isUnsolvable_of_fitOutcome (h : g.Consistent) {m : Mode} {e : Error α}
    (he : g.fitOutcome m = .error e) : e.IsUnsolvable := by
  cases m with
  | bilinear => cases he
  | quadratic =>
      rcases bind_eq_error.mp (map_eq_error.mp he) with hdesign | ⟨_, -, he⟩
      · exact isUnsolvable_of_layOut hdesign
      rcases bind_eq_error.mp he with htable | ⟨_, -, he⟩
      · exact isUnsolvable_of_layOut htable
      rcases bind_eq_error.mp he with hrows | ⟨rows, -, he⟩
      · obtain ⟨r, hr, hrow⟩ := exists_error_of_mapM hrows
        exact h.isUnsolvable_of_fitRow (List.mem_range.mp hr) hrow
      · cases he
  | biquadratic =>
      have hcount : g.samples.size ≠ 0 := by
        rw [h.size_eq]
        exact Nat.ne_of_gt (Nat.mul_pos (Nat.lt_of_lt_of_le Nat.two_pos h.width_ge)
          (Nat.lt_of_lt_of_le Nat.two_pos h.height_ge))
      replace he := map_eq_error.mp he
      rw [h.fitSurface_eq] at he
      rcases bind_eq_error.mp he with htable | ⟨_, -, he⟩
      · exact isUnsolvable_of_layOut htable
      · exact isUnsolvable_of_leastSquares rfl hcount (by decide) (map_eq_error.mp he)

end Consistent

variable [Circular α] {g : Grid α}

theorem interpolant_map_eq_fitOutcome (m : Mode) :
    ((g.sampler.interpolant m).map fun _ => ()) = g.fitOutcome m := by
  cases m with
  | bilinear => rfl
  | quadratic =>
      rw [Sampler.interpolant, parabolas_sampler, fitOutcome]
      cases g.fitRows <;> rfl
  | biquadratic =>
      rw [Sampler.interpolant, surface_sampler, fitOutcome]
      cases g.fitSurface <;> rfl

/-! ## How fills end -/

/-- The ways in which a fill of a block ends, in the order in which they are tried.  A fill that
converts its values lays out a table for them. -/
structure FillEnds (g : Grid α) (m : Mode) (r : Region) (bufferSize : Nat) (converts : Bool)
    (outcome : Except (Error α) Unit) : Prop where
  beyondRange : ¬ r.InRange → outcome = .error (.geometry (.blockBeyondRange r))
  bufferTooSmall : r.InRange → bufferSize < r.count →
    outcome = .error (.bufferTooSmall r.count bufferSize)
  valueTable : r.InRange → r.count ≤ bufferSize → converts → ¬ r.IsStorable →
    outcome = .error (.breach (.valueTable r.count))
  fitFailed : r.InRange → r.count ≤ bufferSize → (converts → r.IsStorable) →
    m.isPolynomial → 0 < r.width → 0 < r.height →
    ∀ e, g.fitOutcome m = .error e → outcome = .error e
  cellTable : r.InRange → r.count ≤ bufferSize → (converts → r.IsStorable) →
    ¬ m.isPolynomial → Index.storageLimit ≤ cellBytes * r.width →
    outcome = .error (.breach (.cellTable r.width))
  filled : r.InRange → r.count ≤ bufferSize → (converts → r.IsStorable) →
    (m.isPolynomial → 0 < r.width → 0 < r.height → g.fitOutcome m = .ok ()) →
    (¬ m.isPolynomial → cellBytes * r.width < Index.storageLimit) → outcome = .ok ()

omit [Circular α] in
/-- A fill that converts its values, once their table is laid out. -/
theorem FillEnds.converted {m : Mode} {r : Region} {bufferSize : Nat}
    {outcome : Except (Error α) Unit} (h : g.FillEnds m r r.count false outcome)
    (hsize : r.count ≤ bufferSize) (hstorable : r.IsStorable) :
    g.FillEnds m r bufferSize true outcome where
  beyondRange := h.beyondRange
  bufferTooSmall := fun _ hsmall => absurd hsize (Nat.not_le.mpr hsmall)
  valueTable := fun _ _ _ hnot => absurd hstorable hnot
  fitFailed := fun hrange _ _ => h.fitFailed hrange (Nat.le_refl _) nofun
  cellTable := fun hrange _ _ => h.cellTable hrange (Nat.le_refl _) nofun
  filled := fun hrange _ _ => h.filled hrange (Nat.le_refl _) nofun

omit [Circular α] in
theorem FillEnds.of_checkFill {m : Mode} {r : Region} {bufferSize : Nat} {e : Error α}
    (h : r.checkFill bufferSize = .error e) (converts : Bool) :
    g.FillEnds m r bufferSize converts (.error e) := by
  have hnot : ¬ (r.InRange ∧ r.count ≤ bufferSize) := by
    intro hpass
    rw [Region.checkFill_eq_ok_iff.mpr hpass] at h
    cases h
  rw [Region.checkFill, Region.pixelCount_eq] at h
  refine ⟨?_, ?_, ?_, ?_, ?_, ?_⟩
  · intro hrange
    rw [← h]
    simp [hrange, bind, Except.bind]
  · intro hrange hsize
    rw [← h]
    simp [hrange, hsize, bind, Except.bind]
  · exact fun hrange hsize => absurd ⟨hrange, hsize⟩ hnot
  · exact fun hrange hsize => absurd ⟨hrange, hsize⟩ hnot
  · exact fun hrange hsize => absurd ⟨hrange, hsize⟩ hnot
  · exact fun hrange hsize => absurd ⟨hrange, hsize⟩ hnot

end Grid

namespace Grid.Consistent

variable [Circular α] {g : Grid α}

theorem outcome_fill_eq (h : g.Consistent) {m : Mode} {r : Region} {buffer : Array α}
    (hcheck : r.InRange ∧ r.count ≤ buffer.size) :
    (g.sampler.fill m r buffer).outcome =
      if m.isPolynomial then (if r.isEmpty then .ok () else g.fitOutcome m)
      else if Index.storageLimit ≤ cellBytes * r.width then .error (.breach (.cellTable r.width))
      else .ok () := by
  by_cases hempty : m.isPolynomial ∧ r.isEmpty
  · rw [Sampler.fill_of_checkFill (Region.checkFill_eq_ok_iff.mpr hcheck), if_pos hempty.1,
      if_pos hempty.2, if_pos hempty.1, if_pos hempty.2]
    rfl
  · rw [h.outcome_fill hcheck fun hm hr => hempty ⟨hm, hr⟩, Sampler.readiness]
    by_cases hm : m.isPolynomial
    · rw [if_pos hm, if_pos hm, if_neg fun hr => hempty ⟨hm, hr⟩, interpolant_map_eq_fitOutcome]
    · rw [if_neg hm, if_neg hm]

theorem fillEnds (h : g.Consistent) (m : Mode) (r : Region) (buffer : Array α) :
    g.FillEnds m r buffer.size false (g.sampler.fill m r buffer).outcome := by
  cases hcheck : (r.checkFill buffer.size : Except (Error α) Unit) with
  | error e =>
      simp only [Sampler.fill, hcheck]
      exact .of_checkFill hcheck false
  | ok =>
      have hpass := Region.checkFill_eq_ok_iff.mp hcheck
      have hempty : r.isEmpty ↔ ¬ (0 < r.width ∧ 0 < r.height) := by
        rw [Region.isEmpty_iff, Region.count, Nat.mul_eq_zero]
        omega
      rw [h.outcome_fill_eq hpass]
      refine ⟨?_, ?_, ?_, ?_, ?_, ?_⟩
      · exact fun hrange => absurd hpass.1 hrange
      · exact fun _ hsize => absurd hpass.2 (Nat.not_le.mpr hsize)
      · exact fun _ _ hconverts => absurd hconverts Bool.false_ne_true
      · intro _ _ _ hm hw hh e he
        rw [if_pos hm, if_neg fun hr => hempty.mp hr ⟨hw, hh⟩, he]
      · intro _ _ _ hm htable
        rw [if_neg hm, if_pos htable]
      · intro _ _ _ hfit htable
        by_cases hm : m.isPolynomial
        · rw [if_pos hm]
          split
          · rfl
          · rename_i hr
            obtain ⟨hw, hh⟩ := Decidable.not_not.mp fun hsides => hr (hempty.mpr hsides)
            exact hfit hm hw hh
        · rw [if_neg hm, if_neg (Nat.not_le.mpr (htable hm))]

omit [Decomposition α] [Circular α] in
theorem buffer_fillMix_of_error (h : g.Consistent) {r : Region} {buffer : Array α} {e : Error α}
    (he : (g.fillMix r buffer).outcome = .error e) : (g.fillMix r buffer).buffer = buffer := by
  rw [h.outcome_fillMix] at he
  split at he
  · rename_i htable
    unfold fillMix
    rw [if_pos htable]
    split <;> rfl
  · cases he

/-- A fill that fails leaves the buffer as it was. -/
theorem buffer_fill_eq_of_error (h : g.Consistent) {m : Mode} {r : Region} {buffer : Array α}
    {e : Error α} (he : (g.sampler.fill m r buffer).outcome = .error e) :
    (g.sampler.fill m r buffer).buffer = buffer := by
  cases hcheck : (r.checkFill buffer.size : Except (Error α) Unit) with
  | error e => simp only [Sampler.fill, hcheck, Filled.failed]
  | ok =>
      rw [Sampler.fill_of_checkFill hcheck] at he ⊢
      split at he
      · split at he
        · cases he
        · rename_i hm hr
          rw [if_pos hm, if_neg hr]
          cases hi : g.sampler.interpolant m with
          | error e =>
              have hwrites : pixelWrites (.error e : Except (Error α) (Interpolant α)) r =
                  r.scan fun _ _ => .error e := rfl
              rw [hwrites, Region.write_scan_error hr]
              rfl
          | ok i =>
              have hok : (Filled.write (pixelWrites (.ok i) r) buffer).outcome = .ok () :=
                Region.outcome_write_scan fun _ _ => h.exists_valueAt hi _ _
              rw [hi, hok] at he
              cases he
      · rename_i hm
        rw [if_neg hm]
        split at he
        · rename_i ha
          rw [if_pos ha]
          exact Components.buffer_fill_of_error he
        · rename_i ha
          rw [if_neg ha]
          exact h.buffer_fillMix_of_error he

theorem fillAs_ends (h : g.Consistent) (f : PixelFormat) (m : Mode) (r : Region)
    (buffer : Array (Pixel α)) :
    g.FillEnds m r buffer.size true (g.sampler.fillAs f m r buffer).outcome ∧
      ∀ e, (g.sampler.fillAs f m r buffer).outcome = .error e →
        (g.sampler.fillAs f m r buffer).buffer = buffer := by
  unfold Sampler.fillAs
  cases hcheck : (r.checkFill buffer.size : Except (Error α) Unit) with
  | error e => exact ⟨.of_checkFill hcheck true, fun _ _ => rfl⟩
  | ok =>
      obtain ⟨hrange, hsize⟩ := Region.checkFill_eq_ok_iff.mp hcheck
      have hends := h.fillEnds m r (Array.replicate r.count Scalar.zero)
      rw [Array.size_replicate] at hends
      dsimp only
      by_cases hstorable : r.IsStorable
      · rw [if_pos hstorable]
        cases hvalues : (g.sampler.fill m r (Array.replicate r.count Scalar.zero)).outcome with
        | error e =>
            rw [hvalues] at hends
            exact ⟨hends.converted hsize hstorable, fun _ _ => rfl⟩
        | ok =>
            rw [hvalues] at hends
            exact ⟨hends.converted hsize hstorable, fun _ he => nomatch he⟩
      · rw [if_neg hstorable]
        refine ⟨⟨?_, ?_, fun _ _ _ _ => rfl, ?_, ?_, ?_⟩, fun _ _ => rfl⟩
        · exact fun hnot => absurd hrange hnot
        · exact fun _ hsmall => absurd hsize (Nat.not_le.mpr hsmall)
        · exact fun _ _ hstored => absurd (hstored rfl) hstorable
        · exact fun _ _ hstored => absurd (hstored rfl) hstorable
        · exact fun _ _ hstored => absurd (hstored rfl) hstorable

/-- A fill of a block in any mode, as it is or in a format of pixels, is refused for its extent,
then for its buffer, and then fails with the fit that its pixels ask for or for a table that cannot
be stored; otherwise it succeeds.  Whatever it fails for, the buffer is as it was. -/
theorem fill_ends_atomically (h : g.Consistent) (m : Mode) (r : Region) :
    (∀ buffer : Array α,
      g.FillEnds m r buffer.size false (g.sampler.fill m r buffer).outcome ∧
        ∀ e, (g.sampler.fill m r buffer).outcome = .error e →
          (g.sampler.fill m r buffer).buffer = buffer) ∧
      (∀ (f : PixelFormat) (buffer : Array (Pixel α)),
        g.FillEnds m r buffer.size true (g.sampler.fillAs f m r buffer).outcome ∧
          ∀ e, (g.sampler.fillAs f m r buffer).outcome = .error e →
            (g.sampler.fillAs f m r buffer).buffer = buffer) ∧
      ∀ e, g.fitOutcome m = .error e → e.IsUnsolvable :=
  ⟨fun buffer => ⟨h.fillEnds m r buffer, fun _ => h.buffer_fill_eq_of_error⟩,
    fun f buffer => h.fillAs_ends f m r buffer, fun _ => h.isUnsolvable_of_fitOutcome⟩

/-- The four corners of a square, for the blocks below. -/
def square : Grid Float := ⟨"square", none, none, ⟨⟨2, 0.5, 2⟩, ⟨2, 0.5, 2⟩⟩, #[1, 2, 3, 4], .none⟩

theorem consistent_square : square.Consistent := by
  decide +kernel

/-- Two pixels for a buffer of one, and a block that reaches beyond the last position. -/
theorem fill_ends_atomically_square :
    (square.sampler.fill .quadratic ⟨0, 0, 2, 1⟩ #[7]).outcome = .error (.bufferTooSmall 2 1) ∧
      (square.sampler.fill .quadratic ⟨0, 0, 2, 1⟩ #[7]).buffer = #[7] ∧
      (square.sampler.fillAs .int16 .bilinear ⟨18446744073709551615, 0, 2, 1⟩
        #[.whole 7, .whole 7]).outcome =
          .error (.geometry (.blockBeyondRange ⟨18446744073709551615, 0, 2, 1⟩)) := by
  obtain ⟨hfill, -, -⟩ := fill_ends_atomically consistent_square .quadratic ⟨0, 0, 2, 1⟩
  obtain ⟨-, hfillAs, -⟩ :=
    fill_ends_atomically consistent_square .bilinear ⟨18446744073709551615, 0, 2, 1⟩
  have hsmall := (hfill #[7]).1.bufferTooSmall (by decide) (by decide)
  exact ⟨hsmall, (hfill #[7]).2 _ hsmall, (hfillAs .int16 _).1.beyondRange (by decide)⟩

/-- A block without a row has no pixel to be found a place for, and yet its cells along a row of
`2 ^ 59` pixels are too many to be laid out. -/
theorem outcome_fill_wide_empty_block :
    let r : Region := ⟨0, 0, 576460752303423488, 0⟩
    square.Consistent ∧ r.InRange ∧ r.count ≤ (#[] : Array Float).size ∧
      (square.sampler.fill .bilinear r #[]).outcome ≠ .ok () ∧
      (square.sampler.fillAs .uint8 .bilinear r #[]).outcome ≠ .ok () ∧
      (square.sampler.fill .quadratic r #[]).outcome = .ok () := by
  intro r
  exact ⟨consistent_square, by decide, by decide, by decide +kernel, by decide +kernel,
    by decide +kernel⟩

end Grid.Consistent

end TiePoints
