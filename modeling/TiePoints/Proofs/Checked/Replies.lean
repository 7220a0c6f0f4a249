import TiePoints.Proofs.Block.Failures
import TiePoints.Proofs.Checked.Samples
import TiePoints.Proofs.Grid.Rectangles
import TiePoints.Proofs.Scene.Chunks

/-!
# Replies in checked steps

On a consistent grid every request has in checked steps the outcome that it has
without checks.  So no sum or product of positions on the way leaves the range
of positions, no difference is cut off at zero, and every access lies inside its
table.  The agreement goes up the layers of the library: the writes of a block,
the components of angles, the interpolants, the fills, the chunks of a scene.
-/

namespace TiePoints

open Checked

variable {α : Type} [Scalar α]

namespace Grid.Consistent

variable {g : Grid α}

/-! ## Blocks of samples as they are -/

theorem checkedFillMix_eq (h : g.Consistent) {r : Region} (hr : r.InRange) {buffer : Array α}
    (hsize : r.count ≤ buffer.size) :
    g.checkedFillMix r buffer = ofResult (g.fillMix r buffer).result := by
  unfold checkedFillMix fillMix
  by_cases hw : r.width = 0
  · rw [if_pos hw, if_pos hw]
    rfl
  rw [if_neg hw, if_neg hw]
  by_cases htable : Index.storageLimit ≤ cellBytes * r.width
  · rw [if_pos htable, if_pos htable]
    rfl
  rw [if_neg htable, if_neg htable]
  have hcolumns : (List.range r.width).mapM
      (fun col => g.geometry.x.checkedCell (pixelCentre (r.x + col))) =
        (.ok (g.columnCells r) : Checked α (List (Cell α))) :=
    mapM_ok fun col _ => Axis.checkedCell_eq h.width_ge _
  have hwrites : ((List.range r.height).flatMap fun row =>
      (g.columnCells r).mapIdx fun col column => (row * r.width + col, do
        let rowCell ← g.geometry.y.checkedCell (pixelCentre (r.y + row))
        g.checkedMixAt ⟨column, rowCell⟩)) =
      (g.mixWrites r).map fun w => (w.1, ofResult w.2) := by
    rw [mixWrites, List.map_flatMap]
    congr 1
    funext row
    apply List.ext_getElem
    · simp
    · intro col hcol _
      have hlt : col < (g.columnCells r).length := by simpa using hcol
      have hcell : (g.columnCells r)[col] = g.geometry.x.cell (pixelCentre (r.x + col)) := by
        simp [columnCells]
      simp only [List.getElem_mapIdx, List.getElem_map, hcell]
      rw [Axis.checkedCell_eq h.height_ge, ← h.checkedMixAt_eq
        (Axis.cell_origin_add_one_lt h.width_ge _) (Axis.cell_origin_add_one_lt h.height_ge _)]
      rfl
  rw [add_eq hr.2.1, add_eq hr.2.2, hcolumns]
  simp only [bind, Except.bind] at hwrites ⊢
  rw [hwrites, write_eq]
  · by_cases hh : r.height = 0
    · rw [if_pos hh]
      simp [mixWrites, hh, Filled.write]
    · rw [if_neg hh]
  · intro w hw'
    rw [mixWrites_eq_scan] at hw'
    exact (Region.lt_count_of_mem_scan hw').trans_le hsize

/-! ## Angles -/

variable [Circular α]

theorem checkedComponents_mixAt_eq (h : g.Consistent) (d : Discontinuity) {l : Lookup α}
    (hc : l.column.origin + 1 < g.width) (hr : l.row.origin + 1 < g.height) :
    g.components.checkedMixAt d l = ofResult (g.components.mixAt d l) := by
  rw [Components.checkedMixAt, h.components.1.checkedMixAt_eq hc hr,
    h.components.2.checkedMixAt_eq hc hr, h.components.1.mixAt_eq hc hr,
    Components.mixAt, h.components.1.mixAt_eq hc hr, h.components.2.mixAt_eq hc hr]
  rfl

theorem checkedComponents_mixAtPlace_eq (h : g.Consistent) (d : Discontinuity) (x y : α) :
    g.components.checkedMixAtPlace d x y = ofResult (g.components.mixAtPlace d x y) := by
  rw [Components.checkedMixAtPlace, h.components.1.checkedMixAtPlace_eq,
    h.components.2.checkedMixAtPlace_eq, Components.mixAtPlace]
  cases g.components.sin.mixAtPlace x y with
  | error e => rfl
  | ok s => cases g.components.cos.mixAtPlace x y <;> rfl

theorem checkedComponents_fill_eq (h : g.Consistent) (d : Discontinuity) {r : Region}
    (hr : r.InRange) (buffer : Array α) :
    g.components.checkedFill d r buffer = ofResult (g.components.fill d r buffer).result := by
  have hblank : r.count ≤ (Array.replicate r.count (Scalar.zero : α)).size := by simp
  rw [Components.checkedFill, h.components.1.checkedFillMix_eq hr hblank,
    h.components.2.checkedFillMix_eq hr hblank, Components.fill, Filled.result, Filled.result]
  cases (g.components.sin.fillMix r (Array.replicate r.count Scalar.zero)).outcome with
  | error e => rfl
  | ok =>
      cases (g.components.cos.fillMix r (Array.replicate r.count Scalar.zero)).outcome <;> rfl

/-! ## Interpolants -/

variable [Decomposition α]

theorem checkedInterpolant_eq (h : g.Consistent) (m : Mode) :
    g.checkedInterpolant m = ofResult (g.sampler.interpolant m) := by
  cases m with
  | bilinear => rfl
  | quadratic =>
      rw [checkedInterpolant, h.checkedFitRows_eq, Sampler.interpolant, parabolas_sampler,
        ofResult_map]
      rfl
  | biquadratic =>
      rw [checkedInterpolant, h.checkedFitSurface_eq, Sampler.interpolant, surface_sampler,
        ofResult_map]

theorem checkedValueAt_mixing_eq (h : g.Consistent) (x y : α) :
    g.mixing.checkedValueAt x y = ofResult (g.sampler.valueAt x y) := by
  have hmixing : g.sampler.mixing = g.mixing := rfl
  rw [Sampler.valueAt, hmixing, mixing]
  split_ifs
  · exact h.checkedComponents_mixAtPlace_eq _ x y
  · exact h.checkedMixAtPlace_eq x y

/-- An interpolant that has come about answers in checked steps, too. -/
theorem checkedValueAt_eq (h : g.Consistent) {m : Mode} {i : Interpolant α}
    (hi : g.sampler.interpolant m = .ok i) (x y : α) :
    i.checkedValueAt x y = ofResult (i.valueAt x y) := by
  obtain rfl | ⟨fits, hfits, rfl⟩ | ⟨fit, -, rfl⟩ := interpolant_cases hi
  · exact h.checkedValueAt_mixing_eq x y
  · have hheight : 0 < g.geometry.y.points := Nat.lt_of_lt_of_le Nat.two_pos h.height_ge
    have hrow := Array.getElem?_eq_getElem (h.pointBefore_lt_size hfits y)
    simp only [Interpolant.checkedValueAt, Interpolant.valueAt,
      Axis.checkedPointBefore_eq hheight, bind, Except.bind, get_eq hrow, hrow]
    rfl
  · rfl

theorem checkedValueAtMode_eq (h : g.Consistent) (x y : α) (m : Mode) :
    g.checkedValueAtMode x y m = ofResult (g.sampler.valueAtMode x y m) := by
  rw [checkedValueAtMode, Sampler.valueAtMode, h.checkedInterpolant_eq]
  cases hi : g.sampler.interpolant m with
  | error e => rfl
  | ok i => exact h.checkedValueAt_eq hi x y

theorem checkedValueAtLookup_eq (h : g.Consistent) {l : Lookup α}
    (hc : l.column.origin + 1 < g.width) (hr : l.row.origin + 1 < g.height) :
    g.checkedValueAtLookup l = ofResult (g.sampler.valueAtLookup l) := by
  rw [checkedValueAtLookup, Sampler.valueAtLookup, components_sampler, grid_sampler]
  split_ifs
  · exact h.checkedComponents_mixAt_eq _ hc hr
  · exact h.checkedMixAt_eq hc hr

/-! ## Fills -/

theorem checkedPixelWrites_eq (h : g.Consistent) (m : Mode) (r : Region) :
    g.checkedPixelWrites m r =
      (pixelWrites (g.sampler.interpolant m) r).map fun w => (w.1, ofResult w.2) := by
  simp only [checkedPixelWrites, pixelWrites, List.map_flatMap, List.map_map,
    Function.comp_def]
  congr 1
  funext row
  apply List.map_congr_left
  intro col _
  exact congrArg _ (h.checkedValueAtMode_eq _ _ m)

theorem checkedFill_eq (h : g.Consistent) (m : Mode) (r : Region) (buffer : Array α) :
    g.checkedFill m r buffer = ofResult (g.sampler.fill m r buffer).result := by
  cases hcheck : (r.checkFill buffer.size : Except (Error α) Unit) with
  | error e =>
      simp only [checkedFill, Sampler.fill, hcheck]
      rfl
  | ok =>
      obtain ⟨hrange, hsize⟩ := Region.checkFill_eq_ok_iff.mp hcheck
      rw [Sampler.fill_of_checkFill hcheck, checkedFill, hcheck]
      simp only [ofResult_ok, bind, Except.bind]
      by_cases hm : m.isPolynomial
      · rw [if_pos hm, if_pos hm, add_eq hrange.2.2, add_eq hrange.2.1]
        by_cases hw : r.width = 0
        · rw [if_pos hw, if_pos (by simp [Region.isEmpty, hw])]
          rfl
        · have hwrite : write (g.checkedPixelWrites m r) buffer =
              ofResult (Filled.write (pixelWrites (g.sampler.interpolant m) r) buffer).result := by
            rw [h.checkedPixelWrites_eq]
            exact write_eq fun w hmem => (Region.lt_count_of_mem_scan hmem).trans_le hsize
          rw [if_neg hw]
          by_cases hempty : r.isEmpty
          · -- a block without rows has no writes
            have hh : r.height = 0 := by simpa [Region.isEmpty, hw] using hempty
            rw [if_pos hempty]
            simp only [hwrite, pixelWrites, hh]
            rfl
          · rw [if_neg hempty]
            exact hwrite
      · rw [if_neg hm, if_neg hm, Checked.slice_eq (Nat.zero_le _) hsize]
        rw [components_sampler, grid_sampler]
        split_ifs
        · exact h.checkedComponents_fill_eq _ hrange buffer
        · exact h.checkedFillMix_eq hrange hsize

theorem checkedFillAs_eq (h : g.Consistent) (f : PixelFormat) (m : Mode) (r : Region)
    (buffer : Array (Pixel α)) :
    g.checkedFillAs f m r buffer = ofResult (g.sampler.fillAs f m r buffer).result := by
  rw [checkedFillAs, Sampler.fillAs, h.checkedFill_eq]
  cases (r.checkFill buffer.size : Except (Error α) Unit) with
  | error e => rfl
  | ok =>
      by_cases hstorable : r.IsStorable
      · simp only [if_pos hstorable]
        rcases g.sampler.fill m r (Array.replicate r.count Scalar.zero) with ⟨values, _ | _⟩ <;>
          rfl
      · simp only [if_neg hstorable]
        rfl

theorem checkedBlock_eq (h : g.Consistent) (m : Mode) (r : Region) :
    g.checkedBlock m r = ofResult (g.sampler.block m r) := by
  rw [checkedBlock, Sampler.block]
  cases r.storableCount (α := α) with
  | error e => rfl
  | ok n =>
      simp only [ofResult_ok, bind, Except.bind, h.checkedFill_eq]
      cases (g.sampler.fill m r (Array.replicate n Scalar.zero)).result <;> rfl

/-! ## Scenes -/

theorem checkedFillChunk_eq (h : g.Consistent) (m : Mode) {width rows k : Nat}
    (hsize : width * rows < Index.limit) (hstart : k * rows < Index.limit) (values : Array α) :
    g.checkedFillChunk m width rows values k =
      ofResult (g.sampler.fillChunk m width rows values k) := by
  rw [checkedFillChunk, Sampler.fillChunk, mul_eq hsize, mul_eq hstart]
  simp only [bind, Except.bind, h.checkedFill_eq]
  generalize (g.sampler.fill m _ _).result = filled
  cases filled <;> rfl

theorem checkedSceneInChunks_eq (h : g.Consistent) (o : SceneOptions) :
    g.checkedSceneInChunks o = ofResult (g.sampler.sceneInChunks o) := by
  rw [checkedSceneInChunks, Sampler.sceneInChunks, Sampler.sceneInOrder, grid_sampler]
  simp only
  generalize g.geometry.scene = r
  cases hn : r.storableCount (α := α) with
  | error e => rfl
  | ok n =>
      obtain ⟨hrange, rfl⟩ := Region.inRange_of_storableCount hn
      simp only [ofResult_ok, bind, Except.bind]
      by_cases hw : r.width = 0
      · rw [if_pos hw, if_pos hw]
        rfl
      · have hheight : r.height < Index.limit := by have := hrange.2.2; omega
        have hrows := o.rowsPerChunk_pos r.height
        have hsize : r.width * o.rowsPerChunk r.height < Index.limit := by
          rcases Nat.eq_zero_or_pos r.height with h0 | hpos
          · have hone : o.rowsPerChunk r.height ≤ 1 := by
              rw [h0, SceneOptions.rowsPerChunk]
              omega
            have hx := hrange.2.1
            have := Nat.mul_le_mul_left r.width hone
            omega
          · exact lt_of_le_of_lt (Nat.mul_le_mul_left _ (o.rowsPerChunk_le hpos)) hrange.1
        have hrun : ∀ blank, (List.range (Sampler.chunkCount r.count
              (r.width * o.rowsPerChunk r.height))).foldlM
                (g.checkedFillChunk o.mode r.width (o.rowsPerChunk r.height)) blank =
            ofResult ((List.range (Sampler.chunkCount r.count
              (r.width * o.rowsPerChunk r.height))).foldlM
                (g.sampler.fillChunk o.mode r.width (o.rowsPerChunk r.height)) blank) := by
          apply foldlM_eq
          intro k hk values
          have hk := (Sampler.lt_chunkCount_iff_rows (Nat.pos_of_ne_zero hw) hrows).mp
            (List.mem_range.mp hk)
          exact h.checkedFillChunk_eq _ hsize (hk.trans hheight) values
        rw [if_neg hw, if_neg hw, mul_eq hsize]
        simp only [hrun]
        generalize (List.range _).foldlM (g.sampler.fillChunk _ _ _) _ = values
        cases values <;> rfl

end Grid.Consistent

/-! ## Requests -/

/-- A lookup that comes with a request was made for a grid with as many points. -/
def Request.SuitedTo (g : Grid α) : Request α → Prop
  | .valueAtLookup l => ∃ (made : Geometry α) (x y : α),
      made.x.points = g.width ∧ made.y.points = g.height ∧ l = made.lookup x y
  | _ => True

/-- Whether the request asks for the bilinear value at a place. -/
def Request.isPlace : Request α → Bool
  | .valueAt _ _ => true
  | .valueAtLookup _ => true
  | .pixel _ _ => true
  | .pixelSingle _ _ => true
  | .pixelInt _ _ => true
  | _ => false

theorem Request.SuitedTo.origins_lt {g : Grid α} {l : Lookup α}
    (hl : (valueAtLookup l).SuitedTo g) (h : g.Consistent) :
    l.column.origin + 1 < g.width ∧ l.row.origin + 1 < g.height := by
  obtain ⟨made, x, y, hx, hy, rfl⟩ := hl
  rw [← hx, ← hy]
  exact ⟨Axis.cell_origin_add_one_lt (hx ▸ h.width_ge) x,
    Axis.cell_origin_add_one_lt (hy ▸ h.height_ge) y⟩

namespace Grid.Consistent

variable [Circular α] [Decomposition α] {g : Grid α}

theorem checkedReply_eq (h : g.Consistent) {r : Request α} (hr : r.SuitedTo g) :
    g.checkedReply r = ofResult (g.sampler.reply r) := by
  cases r with
  | valueAt x y =>
      rw [checkedReply, Sampler.reply, ofResult_map, h.checkedValueAt_mixing_eq]
  | valueAtMode x y m =>
      rw [checkedReply, Sampler.reply, ofResult_map, h.checkedValueAtMode_eq]
  | valueAtNamed x y name =>
      rw [checkedReply, Sampler.reply, ofResult_map, Sampler.valueAtNamed]
      cases (Mode.ofName name : Except (Error α) Mode) with
      | error e => rfl
      | ok m =>
          simp only [ofResult_ok, bind, Except.bind, h.checkedValueAtMode_eq]
  | valueAtLookup l =>
      obtain ⟨hc, hr⟩ := hr.origins_lt h
      rw [checkedReply, Sampler.reply, ofResult_map, h.checkedValueAtLookup_eq hc hr]
  | pixel px py =>
      rw [checkedReply, Sampler.reply, ofResult_map, Interpolant.checkedPixel,
        h.checkedValueAt_mixing_eq]
      rfl
  | pixelSingle px py =>
      rw [checkedReply, Interpolant.checkedPixel, h.checkedValueAt_mixing_eq]
      change _ = ofResult (((g.sampler.valueAt (pixelCentre px) (pixelCentre py)).map
        Scalar.toSingle).map _)
      cases g.sampler.valueAt (pixelCentre px) (pixelCentre py) <;> rfl
  | pixelInt px py =>
      rw [checkedReply, Interpolant.checkedPixel, h.checkedValueAt_mixing_eq]
      change _ = ofResult (((g.sampler.valueAt (pixelCentre px) (pixelCentre py)).map
        PixelFormat.roundToInt32).map _)
      cases g.sampler.valueAt (pixelCentre px) (pixelCentre py) <;> rfl
  | fill m r buffer => rw [checkedReply, Sampler.reply, ofResult_map, h.checkedFill_eq]
  | fillAs f m r buffer => rw [checkedReply, Sampler.reply, ofResult_map, h.checkedFillAs_eq]
  | block m r => rw [checkedReply, Sampler.reply, ofResult_map, h.checkedBlock_eq]
  | scene o =>
      rw [checkedReply, Sampler.reply, ofResult_map, h.checkedBlock_eq]
      rfl
  | sceneInChunks o =>
      rw [checkedReply, Sampler.reply, ofResult_map, h.checkedSceneInChunks_eq]
  | parabolas => rw [checkedReply, Sampler.reply, ofResult_map, h.checkedFitRows_eq]; rfl
  | surface => rw [checkedReply, Sampler.reply, ofResult_map, h.checkedFitSurface_eq]; rfl
  | _ => rfl

theorem exists_valueAtLookup (h : g.Consistent) {l : Lookup α}
    (hc : l.column.origin + 1 < g.width) (hr : l.row.origin + 1 < g.height) :
    ∃ v, g.sampler.valueAtLookup l = .ok v := by
  rw [Sampler.valueAtLookup, components_sampler, grid_sampler]
  split_ifs
  · obtain ⟨s, hs⟩ : ∃ s, g.components.sin.mixAt l = .ok s := ⟨_, h.components.1.mixAt_eq hc hr⟩
    obtain ⟨c, hc⟩ : ∃ c, g.components.cos.mixAt l = .ok c := ⟨_, h.components.2.mixAt_eq hc hr⟩
    refine ⟨g.discontinuity.combine s c, ?_⟩
    rw [Components.mixAt, hs, hc]
    rfl
  · exact ⟨_, h.mixAt_eq hc hr⟩

/-- A request for the value at a place is always answered. -/
theorem exists_reply_of_isPlace (h : g.Consistent) {r : Request α} (hr : r.SuitedTo g)
    (hplace : r.isPlace) : ∃ a, g.sampler.reply r = .ok a := by
  have hpixel : ∀ px py, ∃ v, g.sampler.pixel px py = .ok v := fun px py => h.exists_value _ _
  cases r with
  | valueAt x y =>
      obtain ⟨v, hv⟩ := h.exists_value x y
      exact ⟨.scalar v, by rw [Sampler.reply, hv]; rfl⟩
  | valueAtLookup l =>
      obtain ⟨hc, hr⟩ := hr.origins_lt h
      obtain ⟨v, hv⟩ := h.exists_valueAtLookup hc hr
      exact ⟨.scalar v, by rw [Sampler.reply, hv]; rfl⟩
  | pixel px py =>
      obtain ⟨v, hv⟩ := hpixel px py
      exact ⟨.scalar v, by rw [Sampler.reply, hv]; rfl⟩
  | pixelSingle px py =>
      obtain ⟨v, hv⟩ := hpixel px py
      exact ⟨.scalar _, by rw [Sampler.reply, Sampler.pixelSingle, hv]; rfl⟩
  | pixelInt px py =>
      obtain ⟨v, hv⟩ := hpixel px py
      exact ⟨.whole _, by rw [Sampler.reply, Sampler.pixelInt, hv]; rfl⟩
  | _ => cases hplace

theorem staysInside_reply (h : g.Consistent) {r : Request α} (hr : r.SuitedTo g) :
    StaysInside (g.sampler.reply r) := by
  by_cases hplace : r.isPlace
  · obtain ⟨a, ha⟩ := h.exists_reply_of_isPlace hr hplace
    rw [ha]
    exact .ok a
  · cases r with
    | valueAtMode x y m => exact (h.staysInside_valueAtMode x y m).map _
    | valueAtNamed x y name =>
        refine StaysInside.map ?_ _
        exact (staysInside_ofName name).bind fun m _ => h.staysInside_valueAtMode x y m
    | fill m r buffer => exact (h.staysInside_fill m r buffer).result.map _
    | fillAs f m r buffer => exact (h.staysInside_fillAs f m r buffer).result.map _
    | block m r => exact (h.staysInside_block m r).map _
    | scene o => exact (h.staysInside_block _ _).map _
    | sceneInChunks o => exact (h.staysInside_sceneInChunks o).map _
    | parabolas => exact h.staysInside_fitRows.map _
    | surface => exact h.staysInside_fitSurface.map _
    | setPixel x y v => exact .error id
    | setPixels r vs => exact .error id
    | setDiscontinuity d => exact .ok _
    | release => exact .ok _
    | copy => exact .ok _
    | _ => exact absurd rfl hplace

omit [Circular α] [Decomposition α] in
theorem staysInside_read (h : g.Consistent) (r : Region) : StaysInside (g.read r) := by
  by_cases hr : r.FitsIn g.width g.height
  · rw [h.read_eq hr]
    exact .ok _
  · rw [read_of_not_fitsIn hr]
    exact .error id

/-- Every request to a consistent grid, and every rectangle read from one, has in checked steps
the outcome that it has without checks.  No outcome is the failure to find an element, and the
value at a place, whichever double or lookup names it, is always found. -/
theorem replies_in_range (h : g.Consistent) :
    (∀ r : Request α, r.SuitedTo g →
      g.checkedReply r = ofResult (g.sampler.reply r) ∧ StaysInside (g.sampler.reply r) ∧
        (r.isPlace → ∃ a, g.sampler.reply r = .ok a)) ∧
      ∀ r : Region, g.checkedRead r = ofResult (g.read r) ∧ StaysInside (g.read r) := by
  refine ⟨?_, fun r => ⟨h.checkedRead_eq r, h.staysInside_read r⟩⟩
  intro r hr
  exact ⟨h.checkedReply_eq hr, h.staysInside_reply hr, h.exists_reply_of_isPlace hr⟩

/-- A grid of angles asked at an undefined place, for a lookup made elsewhere, and for a block at
the end of the range of positions. -/
theorem replies_in_range_at_the_ends :
    let g : Grid Float :=
      ⟨"azimuth", none, none, ⟨⟨2, 0.5, 2⟩, ⟨2, 0.5, 2⟩⟩, #[358, 2, 358, 2], .at360⟩
    let made : Geometry Float := ⟨⟨2, 7, 0.1⟩, ⟨2, -3, 1e300⟩⟩
    let nan : Float := 0 / 0
    let block : Request Float := .fill .bilinear ⟨18446744073709551614, 0, 1, 1⟩ #[0]
    (∃ a, g.sampler.reply (.valueAt nan 1e308) = .ok a) ∧
      (∃ a, g.sampler.reply (.valueAtLookup (made.lookup nan (-1e308))) = .ok a) ∧
      g.checkedReply block = ofResult (g.sampler.reply block) := by
  intro g made nan block
  have h : g.Consistent := by decide +kernel
  obtain ⟨hreply, -⟩ := h.replies_in_range
  exact ⟨(hreply (.valueAt nan 1e308) trivial).2.2 rfl,
    (hreply (.valueAtLookup (made.lookup nan (-1e308)))
      ⟨made, nan, -1e308, rfl, rfl, rfl⟩).2.2 rfl,
    (hreply block trivial).1⟩

end Grid.Consistent

end TiePoints
