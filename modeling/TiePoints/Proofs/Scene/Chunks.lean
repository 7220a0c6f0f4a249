import TiePoints.Proofs.Block.Outcome
import TiePoints.Proofs.Double.Magnitude
import TiePoints.Scene

/-!
# Scenes in chunks

A scene that is extracted in chunks of rows is the scene that is extracted as
one block, in whatever order the chunks are processed.  A chunk reads none of
the values that another has written, so all that a run of chunks has to keep is
that the positions of the chunks behind it show their pixels.  A chunk fails
only as the whole scene does, and all chunks fail alike.
-/

namespace TiePoints

theorem Region.inRange_of_storableCount {α : Type} {r : Region} {n : Nat}
    (h : r.storableCount (α := α) = .ok n) : r.InRange ∧ n = r.count := by
  rw [storableCount, pixelCount_eq] at h
  by_cases hr : r.InRange
  · by_cases hs : r.IsStorable
    · simp only [hr, hs, if_true, bind, Except.bind, Except.ok.injEq] at h
      exact ⟨hr, h.symm⟩
    · simp [hr, hs, bind, Except.bind] at h
  · simp [hr, bind, Except.bind] at h

/-! ## Rows of a chunk -/

namespace SceneOptions

theorem rowsPerChunk_pos (o : SceneOptions) (height : Nat) : 0 < o.rowsPerChunk height :=
  Nat.le_max_left _ _

theorem rowsPerChunk_le (o : SceneOptions) {height : Nat} (h : 0 < height) :
    o.rowsPerChunk height ≤ height := by
  unfold rowsPerChunk
  omega

end SceneOptions

namespace Sampler

/-- Chunk `k` of `n` values, as a block of the scene. -/
def chunk (width rows n k : Nat) : Region :=
  ⟨0, k * rows, width, (min (k * (width * rows) + width * rows) n - k * (width * rows)) / width⟩

@[simp] theorem chunk_x (width rows n k : Nat) : (chunk width rows n k).x = 0 := rfl

@[simp] theorem chunk_y (width rows n k : Nat) : (chunk width rows n k).y = k * rows := rfl

@[simp] theorem chunk_width (width rows n k : Nat) : (chunk width rows n k).width = width := rfl

theorem lt_chunkCount_iff {n size k : Nat} (hsize : 0 < size) :
    k < chunkCount n size ↔ k * size < n := by
  rw [chunkCount, Nat.lt_div_iff_mul_lt hsize]
  omega

section

variable {width height rows k : Nat}

theorem lt_chunkCount_iff_rows (hw : 0 < width) (hrows : 0 < rows) :
    k < chunkCount (width * height) (width * rows) ↔ k * rows < height := by
  rw [lt_chunkCount_iff (Nat.mul_pos hw hrows), Nat.mul_left_comm]
  exact Nat.mul_lt_mul_left hw

theorem chunk_height (hw : 0 < width) :
    (chunk width rows (width * height) k).height = min rows (height - k * rows) := by
  have hstart : k * (width * rows) = width * (k * rows) := Nat.mul_left_comm _ _ _
  simp only [chunk]
  rw [hstart, ← Nat.mul_add, Nat.mul_min_mul_left, ← Nat.mul_sub, Nat.mul_div_cancel_left _ hw]
  omega

/-- The rows of the scene are distributed among the chunks. -/
theorem existsUnique_chunk (hw : 0 < width) (hrows : 0 < rows) {row : Nat} (hrow : row < height) :
    ∃! k, k < chunkCount (width * height) (width * rows) ∧
      (chunk width rows (width * height) k).y ≤ row ∧
        row < (chunk width rows (width * height) k).y +
          (chunk width rows (width * height) k).height := by
  have hdiv : row / rows * rows ≤ row := Nat.div_mul_le_self _ _
  have hmod : row < row / rows * rows + rows := Nat.lt_div_mul_add hrows
  refine ⟨row / rows, ⟨?_, hdiv, ?_⟩, ?_⟩
  · rw [lt_chunkCount_iff_rows hw hrows]
    omega
  · rw [chunk_height hw, chunk_y]
    omega
  · rintro k ⟨-, hle, hlt⟩
    rw [chunk_height hw, chunk_y] at hlt
    rw [chunk_y] at hle
    have hnext : (k + 1) * rows = k * rows + rows := Nat.succ_mul _ _
    exact (Nat.div_eq_of_lt_le hle (by omega)).symm

theorem chunk_inRange (hw : 0 < width) (hk : k * rows < height)
    (h : (⟨0, 0, width, height⟩ : Region).InRange) :
    (chunk width rows (width * height) k).InRange := by
  obtain ⟨hcount, hx, hy⟩ := h
  have hheight : (chunk width rows (width * height) k).height ≤ height - k * rows := by
    rw [chunk_height hw]
    exact Nat.min_le_right _ _
  refine ⟨?_, hx, ?_⟩
  · exact lt_of_le_of_lt (Nat.mul_le_mul_left width (hheight.trans (Nat.sub_le _ _))) hcount
  · simp only [chunk_y]
    simp only at hy
    omega

theorem not_isEmpty_chunk (hw : 0 < width) (hrows : 0 < rows) (hk : k * rows < height) :
    ¬ (chunk width rows (width * height) k).isEmpty := by
  have hpos : 0 < (chunk width rows (width * height) k).height := by
    rw [chunk_height hw]
    omega
  rw [Region.isEmpty_iff]
  exact (Nat.mul_pos hw hpos).ne'

/-- The part of the values that a chunk fills is as large as the chunk. -/
theorem count_chunk (hw : 0 < width) (height rows k : Nat) :
    (chunk width rows (width * height) k).count =
      min (k * (width * rows) + width * rows) (width * height) - k * (width * rows) := by
  have hstart : k * (width * rows) = width * (k * rows) := Nat.mul_left_comm _ _ _
  rw [Region.count, chunk_height hw, hstart, ← Nat.mul_add, Nat.mul_min_mul_left, ← Nat.mul_sub]
  congr 1
  omega

theorem size_extract_chunk {β : Type} {values : Array β} (hw : 0 < width)
    (hsize : values.size = width * height) (rows k : Nat) :
    (values.extract (k * (width * rows)) (k * (width * rows) + width * rows)).size =
      (chunk width rows (width * height) k).count := by
  rw [Array.size_extract, count_chunk hw, hsize]

/-- The place in a chunk of a position of the scene. -/
theorem exists_place_in_chunk (hw : 0 < width) (hrows : 0 < rows) {p : Nat}
    (hp : p < width * height) (hk : p / (width * rows) = k) :
    ∃ q < (chunk width rows (width * height) k).count, p = k * (width * rows) + q ∧
      p % width = q % width ∧ p / width = k * rows + q / width := by
  have hsplit : p = k * (width * rows) + p % (width * rows) := by
    rw [← hk]
    exact (Nat.div_add_mod' _ _).symm
  have hlt : p % (width * rows) < width * rows := Nat.mod_lt _ (Nat.mul_pos hw hrows)
  have hstart : k * (width * rows) = width * (k * rows) := Nat.mul_left_comm _ _ _
  refine ⟨p % (width * rows), ?_, hsplit, ?_, ?_⟩
  · rw [count_chunk hw]
    omega
  · exact (Nat.mod_mul_right_mod _ _ _).symm
  · conv_lhs => rw [hsplit, hstart, Nat.mul_add_div hw]

end

variable {α : Type} [Scalar α] [Circular α]

theorem fillChunk_eq (s : Sampler α) (m : Mode) (width rows : Nat) (values : Array α) (k : Nat) :
    s.fillChunk m width rows values k =
      (s.fill m (chunk width rows values.size k)
        (values.extract (k * (width * rows)) (k * (width * rows) + width * rows))).result.map
          fun filled => overwrite (k * (width * rows)) filled values := by
  simp only [fillChunk, chunk, Array.size_extract]
  rfl

/-- At a position of the values stands the value of the pixel there. -/
def ShowsPixel (s : Sampler α) (m : Mode) (width : Nat) (values : Array α) (p : Nat) : Prop :=
  ∃ v, s.valueAtMode (pixelCentre (p % width)) (pixelCentre (p / width)) m = .ok v ∧
    values[p]? = some v

/-- Values that show all of their pixels are determined. -/
theorem eq_of_showsPixel {s : Sampler α} {m : Mode} {width n : Nat} {a b : Array α}
    (hasize : a.size = n) (hbsize : b.size = n) (ha : ∀ p < n, s.ShowsPixel m width a p)
    (hb : ∀ p < n, s.ShowsPixel m width b p) : a = b := by
  apply Array.ext_getElem?
  intro p
  rcases Nat.lt_or_ge p n with hp | hp
  · obtain ⟨v, hv, hget⟩ := ha p hp
    obtain ⟨u, hu, hget'⟩ := hb p hp
    rw [hv] at hu
    obtain rfl := Except.ok.inj hu
    rw [hget, hget']
  · rw [Array.getElem?_eq_none (by omega), Array.getElem?_eq_none (by omega)]

omit [Scalar α] [Circular α] in
/-- Values written over chunk `k` leave the other chunks as they are. -/
theorem getElem?_overwrite_of_div_ne {size k p : Nat} {filled values : Array α}
    (hfilled : filled.size ≤ size) (hp : p / size ≠ k) :
    (overwrite (k * size) filled values)[p]? = values[p]? := by
  rcases Nat.lt_or_ge p (k * size) with hlt | hge
  · exact getElem?_overwrite_of_lt hlt
  · have hnext : (k + 1) * size ≤ p := by
      by_contra hlt
      exact hp (Nat.div_eq_of_lt_le hge (Nat.not_le.mp hlt))
    rw [Nat.succ_mul] at hnext
    exact getElem?_overwrite_of_le (by omega)

end Sampler

namespace Grid.Consistent

open Sampler

variable {α : Type} [Scalar α] [Circular α] [Decomposition α] {g : Grid α} {m : Mode}
variable {width height rows : Nat}

/-! ## One chunk -/

/-- A chunk ends as the scene does. -/
theorem outcome_fill_chunk (h : g.Consistent) (hw : 0 < width) (hrows : 0 < rows)
    (hrange : (⟨0, 0, width, height⟩ : Region).InRange) {part : Array α} {k : Nat}
    (hk : k * rows < height) (hpart : part.size = (chunk width rows (width * height) k).count) :
    (g.sampler.fill m (chunk width rows (width * height) k) part).outcome =
      g.sampler.readiness m width :=
  h.outcome_fill ⟨chunk_inRange hw hk hrange, hpart.ge⟩ fun _ => not_isEmpty_chunk hw hrows hk

theorem exists_fillChunk (h : g.Consistent) (hready : g.sampler.readiness m width = .ok ())
    (hw : 0 < width) (hrows : 0 < rows) (hrange : (⟨0, 0, width, height⟩ : Region).InRange)
    {values : Array α} (hsize : values.size = width * height) {k : Nat} (hk : k * rows < height) :
    ∃ new, g.sampler.fillChunk m width rows values k = .ok new ∧ new.size = values.size ∧
      (∀ p < width * height, p / (width * rows) = k → g.sampler.ShowsPixel m width new p) ∧
        ∀ p, p / (width * rows) ≠ k → new[p]? = values[p]? := by
  have hpart := size_extract_chunk hw hsize rows k
  have hok := (h.outcome_fill_chunk hw hrows hrange hk hpart).trans hready
  have hshows := shows_fill hok
  have hcount := count_chunk hw height rows k
  have hfilled := hshows.size_eq.trans hpart
  rw [fillChunk_eq, hsize, Filled.result, hok]
  refine ⟨_, rfl, ?_, ?_, ?_⟩
  · rw [size_overwrite, hsize]
  · intro p hp hpk
    obtain ⟨q, hq, hplace, hcol, hrow⟩ := exists_place_in_chunk hw hrows hp hpk
    obtain ⟨v, hv, hget⟩ := hshows.position hq
    refine ⟨v, ?_, ?_⟩
    · rw [hcol, hrow]
      simpa using hv
    · rw [hplace]
      exact getElem?_overwrite_eq_some hget (by omega)
  · intro p hpk
    exact getElem?_overwrite_of_div_ne ((hfilled.trans hcount).le.trans (by omega)) hpk

theorem fillChunk_error (h : g.Consistent) {e : Error α}
    (hready : g.sampler.readiness m width = .error e) (hw : 0 < width) (hrows : 0 < rows)
    (hrange : (⟨0, 0, width, height⟩ : Region).InRange) {values : Array α}
    (hsize : values.size = width * height) {k : Nat} (hk : k * rows < height) :
    g.sampler.fillChunk m width rows values k = .error e := by
  have hpart := size_extract_chunk hw hsize rows k
  have hfailed := (h.outcome_fill_chunk hw hrows hrange hk hpart).trans hready
  rw [fillChunk_eq, hsize, Filled.result, hfailed]
  rfl

/-! ## A run of chunks -/

theorem exists_foldlM_fillChunk (h : g.Consistent)
    (hready : g.sampler.readiness m width = .ok ()) (hw : 0 < width) (hrows : 0 < rows)
    (hrange : (⟨0, 0, width, height⟩ : Region).InRange) {order : List Nat}
    (horder : ∀ k ∈ order, k * rows < height) {values : Array α}
    (hsize : values.size = width * height) :
    ∃ new, order.foldlM (g.sampler.fillChunk m width rows) values = .ok new ∧
      new.size = values.size ∧
      (∀ p < width * height, p / (width * rows) ∈ order → g.sampler.ShowsPixel m width new p) ∧
        ∀ p, p / (width * rows) ∉ order → new[p]? = values[p]? := by
  induction order generalizing values with
  | nil =>
      refine ⟨values, rfl, rfl, ?_, fun _ _ => rfl⟩
      intro p _ hmem
      cases hmem
  | cons k order ih =>
      obtain ⟨mid, hmid, hmidsize, hchunk, hother⟩ :=
        h.exists_fillChunk hready hw hrows hrange hsize (horder k List.mem_cons_self)
      obtain ⟨new, hnew, hnewsize, hdone, hkept⟩ :=
        ih (fun j hj => horder j (List.mem_cons_of_mem k hj)) (hmidsize.trans hsize)
      refine ⟨new, ?_, hnewsize.trans hmidsize, ?_, ?_⟩
      · rw [List.foldlM_cons, hmid]
        exact hnew
      · intro p hp hmem
        by_cases hlater : p / (width * rows) ∈ order
        · exact hdone p hp hlater
        · -- no later chunk touches what this one has shown
          have hpk : p / (width * rows) = k := (List.mem_cons.mp hmem).resolve_right hlater
          obtain ⟨v, hv, hget⟩ := hchunk p hp hpk
          exact ⟨v, hv, (hkept p hlater).trans hget⟩
      · intro p hmem
        rw [List.mem_cons, not_or] at hmem
        rw [hkept p hmem.2, hother p hmem.1]

theorem foldlM_fillChunk_error (h : g.Consistent) {e : Error α}
    (hready : g.sampler.readiness m width = .error e) (hw : 0 < width) (hrows : 0 < rows)
    (hrange : (⟨0, 0, width, height⟩ : Region).InRange) {order : List Nat} (hne : order ≠ [])
    (horder : ∀ k ∈ order, k * rows < height) {values : Array α}
    (hsize : values.size = width * height) :
    order.foldlM (g.sampler.fillChunk m width rows) values = .error e := by
  obtain ⟨k, rest, rfl⟩ := List.exists_cons_of_ne_nil hne
  rw [List.foldlM_cons,
    h.fillChunk_error hready hw hrows hrange hsize (horder k List.mem_cons_self)]
  rfl

/-- The chunks of a scene, in any order, make up the block of the whole scene. -/
theorem foldlM_fillChunk_eq_fill (h : g.Consistent) (hw : 0 < width) (hh : 0 < height)
    (hrows : 0 < rows) (hrange : (⟨0, 0, width, height⟩ : Region).InRange) {order : List Nat}
    (horder : order.Perm (List.range (chunkCount (width * height) (width * rows))))
    {values : Array α} (hsize : values.size = width * height) :
    order.foldlM (g.sampler.fillChunk m width rows) values =
      (g.sampler.fill m ⟨0, 0, width, height⟩ values).result := by
  have hmem : ∀ k, k ∈ order ↔ k * rows < height := by
    intro k
    rw [horder.mem_iff, List.mem_range, lt_chunkCount_iff_rows hw hrows]
  have hwhole := h.outcome_fill (m := m) (r := ⟨0, 0, width, height⟩) ⟨hrange, hsize.ge⟩
    (fun _ => by simp [Region.isEmpty, hw.ne', hh.ne'])
  cases hready : g.sampler.readiness m width with
  | error e =>
      have hne : order ≠ [] := List.ne_nil_of_mem ((hmem 0).mpr (by omega))
      rw [hready] at hwhole
      rw [h.foldlM_fillChunk_error hready hw hrows hrange hne (fun k hk => (hmem k).mp hk) hsize,
        Filled.result, hwhole]
      rfl
  | ok =>
      rw [hready] at hwhole
      have hshows := shows_fill hwhole
      obtain ⟨new, hnew, hnewsize, hdone, -⟩ :=
        h.exists_foldlM_fillChunk hready hw hrows hrange (fun k hk => (hmem k).mp hk) hsize
      have hall : ∀ p < width * height, g.sampler.ShowsPixel m width new p := by
        intro p hp
        apply hdone p hp
        rw [horder.mem_iff, List.mem_range, lt_chunkCount_iff (Nat.mul_pos hw hrows)]
        exact lt_of_le_of_lt (Nat.div_mul_le_self _ _) hp
      have hwant : ∀ p < width * height, g.sampler.ShowsPixel m width
          (g.sampler.fill m ⟨0, 0, width, height⟩ values).buffer p := by
        intro p hp
        obtain ⟨v, hv, hget⟩ := hshows.position hp
        exact ⟨v, by simpa using hv, hget⟩
      have heq := eq_of_showsPixel (hnewsize.trans hsize) (hshows.size_eq.trans hsize) hall hwant
      rw [hnew, Filled.result, hwhole, heq]
      rfl

/-! ## The scene -/

theorem sceneInOrder_eq_scene (h : g.Consistent) (hw : 0 < g.geometry.x.sceneLength)
    (hh : 0 < g.geometry.y.sceneLength) (o : SceneOptions) {order : Nat → List Nat}
    (horder : ∀ n, (order n).Perm (List.range n)) :
    g.sampler.sceneInOrder o order = g.sampler.scene o := by
  have hscene : g.sampler.grid.geometry.scene =
      ⟨0, 0, g.geometry.x.sceneLength, g.geometry.y.sceneLength⟩ := rfl
  simp only [sceneInOrder, scene, block, hscene, if_neg hw.ne']
  generalize g.geometry.x.sceneLength = width at hw
  generalize g.geometry.y.sceneLength = height at hh
  cases hn : (⟨0, 0, width, height⟩ : Region).storableCount (α := α) with
  | error e => rfl
  | ok n =>
      obtain ⟨hrange, rfl⟩ := Region.inRange_of_storableCount hn
      have hblank : (Array.replicate (width * height) (Scalar.zero : α)).size = width * height :=
        Array.size_replicate
      have hrun := h.foldlM_fillChunk_eq_fill (m := o.mode) hw hh (o.rowsPerChunk_pos height)
        hrange (horder _) hblank
      simp only [bind, Except.bind, Region.count]
      rw [← hrun]

end Grid.Consistent

namespace Sampler

section

variable {α : Type} [Scalar α] [Circular α] {s : Sampler α} {m : Mode} {r : Region}
variable {raster : Raster α}

/-- A raster has the sides of its block and shows the point queries at the centres of the pixels. -/
theorem shows_block (h : s.block m r = .ok raster) :
    (raster.height = r.height ∧ raster.width = r.width) ∧
      r.Shows (fun col row => s.valueAtMode (pixelCentre (r.x + col)) (pixelCentre (r.y + row)) m)
        (Array.replicate r.count Scalar.zero) raster.values := by
  simp only [block, bind, Except.bind] at h
  cases hn : r.storableCount (α := α) with
  | error e => simp [hn] at h
  | ok n =>
      obtain ⟨-, rfl⟩ := Region.inRange_of_storableCount hn
      simp only [hn, Filled.result] at h
      cases hok : (s.fill m r (Array.replicate r.count Scalar.zero)).outcome with
      | error e => simp [hok, Except.map] at h
      | ok =>
          simp only [hok, Except.map, Raster.ofValues] at h
          split_ifs at h
          obtain rfl := Except.ok.inj h
          exact ⟨⟨rfl, rfl⟩, shows_fill hok⟩

theorem shape_of_block_eq_ok (h : s.block m r = .ok raster) :
    raster.height = r.height ∧ raster.width = r.width ∧ raster.values.size = r.count := by
  obtain ⟨⟨hheight, hwidth⟩, hshows⟩ := shows_block h
  exact ⟨hheight, hwidth, hshows.size_eq.trans Array.size_replicate⟩

/-- Every cell of a raster is the point query at the centre of some pixel. -/
theorem exists_pixel_of_mem_block (h : s.block m r = .ok raster) {v : α}
    (hv : v ∈ raster.values) :
    ∃ px py, s.valueAtMode (pixelCentre px) (pixelCentre py) m = .ok v := by
  obtain ⟨-, hshows⟩ := shows_block h
  have hsize : raster.values.size = r.count := hshows.size_eq.trans Array.size_replicate
  obtain ⟨p, hp, rfl⟩ := Array.mem_iff_getElem.mp hv
  obtain ⟨shown, hvalue, hget⟩ := hshows.position (hsize ▸ hp)
  rw [Array.getElem?_eq_getElem hp, Option.some_inj] at hget
  exact ⟨_, _, hget ▸ hvalue⟩

end

/-- A scene extracted in chunks, whatever their number of rows and their order, is the scene
extracted as one block, with the same failure if there is one.  Each row belongs to exactly one
chunk, and no chunk leaves the range of positions. -/
theorem sceneInOrder_eq [Circular Float] [Decomposition Float] {g : Grid Float}
    (h : g.Consistent) (o : SceneOptions) {order : Nat → List Nat}
    (horder : ∀ n, (order n).Perm (List.range n)) :
    let r := g.geometry.scene
    let rows := o.rowsPerChunk r.height
    let chunks := chunkCount r.count (r.width * rows)
    g.sampler.sceneInOrder o order = g.sampler.scene o ∧
      (∀ raster, g.sampler.scene o = .ok raster →
        raster.height = r.height ∧ raster.width = r.width ∧ raster.values.size = r.count) ∧
      (∀ row < r.height, ∃! k, k < chunks ∧ (chunk r.width rows r.count k).y ≤ row ∧
        row < (chunk r.width rows r.count k).y + (chunk r.width rows r.count k).height) ∧
      (r.InRange → r.width * rows < Index.limit ∧
        ∀ k < chunks, k * rows < Index.limit ∧ (chunk r.width rows r.count k).InRange) := by
  intro r rows chunks
  have hw : 0 < r.width := Axis.sceneLength_pos h.valid.spacing_x
  have hh : 0 < r.height := Axis.sceneLength_pos h.valid.spacing_y
  have hrows : 0 < rows := o.rowsPerChunk_pos _
  refine ⟨h.sceneInOrder_eq_scene hw hh o horder, fun _ => shape_of_block_eq_ok, ?_, ?_⟩
  · intro row hrow
    exact existsUnique_chunk hw hrows hrow
  · intro hrange
    constructor
    · exact lt_of_le_of_lt (Nat.mul_le_mul_left _ (o.rowsPerChunk_le hh)) hrange.1
    · intro k hk
      have hstart : k * rows < r.height := (lt_chunkCount_iff_rows hw hrows).mp hk
      refine ⟨?_, chunk_inRange hw hstart hrange⟩
      have hlast := hrange.2.2
      omega

/-- A scene of three rows, extracted row by row from the last to the first. -/
theorem sceneInOrder_eq_of_reversed_rows :
    let g : Grid Float :=
      ⟨"elevation", none, none, ⟨⟨2, 0.5, 2⟩, ⟨2, 0.5, 2⟩⟩, #[1, 2, 3, 4], .none⟩
    let o : SceneOptions := { chunkRows := 1 }
    g.sampler.sceneInOrder o (fun n => (List.range n).reverse) = g.sampler.scene o := by
  intro g o
  have h : g.Consistent := by decide +kernel
  exact (sceneInOrder_eq h o fun n => List.reverse_perm _).1

end Sampler

end TiePoints
