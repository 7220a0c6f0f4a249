import Mathlib.Data.List.Nodup
import TiePoints.Block
import TiePoints.Proofs.Grid.Nodes

/-!
# Scans of a block

Every fill comes down to one scan: the pixels of the block are visited row by
row, and the value of each is written to its position.  A buffer that is cut
into pieces of the width of the block, one for each row, is visited in the same
way, however long it is.  The positions of a scan are `0, 1, 2, …` without gap
or repetition, so a scan that succeeds shows the value of each pixel at its
place and touches nothing behind the block.
-/

namespace TiePoints

variable {α β : Type}

namespace Filled

/-- A write that no later write covers is still there at the end. -/
theorem getElem?_write_of_mem {ws : List (Nat × Except (Error α) β)} {buffer : Array β}
    {p : Nat} {v : β} (hok : (write ws buffer).outcome = .ok ())
    (hnodup : (ws.map Prod.fst).Nodup) (hmem : (p, .ok v) ∈ ws) (hp : p < buffer.size) :
    (write ws buffer).buffer[p]? = some v := by
  fun_induction write ws buffer with
  | case1 => simp at hmem
  | case2 buffer q rest u ih =>
      obtain ⟨hq, hrest⟩ := List.nodup_cons.mp hnodup
      rcases List.mem_cons.mp hmem with heq | hmem
      · obtain ⟨rfl, hv⟩ := Prod.mk.inj heq
        obtain rfl := Except.ok.inj hv
        have hother : ∀ w ∈ rest, w.1 ≠ p :=
          fun w hw h => hq (List.mem_map.mpr ⟨w, hw, h⟩)
        rw [getElem?_write_of_notMem hother]
        exact Array.getElem?_setIfInBounds_self_of_lt hp
      · exact ih hok hrest hmem (by simpa using hp)
  | case3 => simp [failed] at hok

end Filled

theorem getElem?_overwrite_eq_some {start k : Nat} {values buffer : Array β} {v : β}
    (hv : values[k]? = some v) (h : start + k < buffer.size) :
    (overwrite start values buffer)[start + k]? = some v := by
  obtain ⟨hk, rfl⟩ := Array.getElem?_eq_some_iff.mp hv
  exact getElem?_overwrite hk h

/-! ## Pieces of a buffer -/

/-- A list cut into pieces of `n` elements, the last of which may be shorter. -/
def pieces (n : ℕ) (xs : List β) : List (List β) :=
  if n = 0 ∨ xs = [] then [] else xs.take n :: pieces n (xs.drop n)
  termination_by xs.length
  decreasing_by
    rename_i hcut
    obtain ⟨hn, hxs⟩ := not_or.mp hcut
    have hlength := List.length_pos_of_ne_nil hxs
    rw [List.length_drop]
    omega

theorem getElem?_pieces {n : ℕ} (hn : n ≠ 0) (xs : List β) (k : ℕ) :
    (pieces n xs)[k]? =
      if k * n < xs.length then some ((xs.drop (k * n)).take n) else none := by
  induction k generalizing xs with
  | zero =>
      rw [pieces]
      by_cases hxs : xs = []
      · simp [hxs]
      · simp [hn, hxs, List.length_pos_of_ne_nil hxs]
  | succ k ih =>
      rw [pieces]
      by_cases hxs : xs = []
      · simp [hxs]
      · have hplace : (k + 1) * n = n + k * n := by rw [Nat.succ_mul, Nat.add_comm]
        have hlength : k * n < xs.length - n ↔ n + k * n < xs.length := by omega
        rw [if_neg (not_or.mpr ⟨hn, hxs⟩), List.getElem?_cons_succ, ih, List.drop_drop,
          List.length_drop, hplace]
        simp only [hlength]

namespace Region

/-- A buffer cut into pieces of the width of the block has a piece for each row, and the pieces are
the positions of the rows. -/
theorem zip_pieces_range {r : Region} (hw : r.width ≠ 0) {size : ℕ} (hsize : r.count ≤ size) :
    (pieces r.width (List.range size)).zip (List.range r.height) =
      (List.range r.height).map fun row =>
        ((List.range r.width).map fun col => row * r.width + col, row) := by
  apply List.ext_getElem?
  intro row
  rw [List.zip, List.getElem?_zipWith, getElem?_pieces hw, List.getElem?_map]
  by_cases hrow : row < r.height
  · have hend : row * r.width + r.width ≤ size := by
      calc row * r.width + r.width = r.width * (row + 1) := by rw [← Nat.succ_mul, Nat.mul_comm]
        _ ≤ r.count := Nat.mul_le_mul_left _ hrow
        _ ≤ size := hsize
    have hpiece : ((List.range size).drop (row * r.width)).take r.width =
        (List.range r.width).map fun col => row * r.width + col := by
      apply List.ext_getElem
      · simp
        omega
      · simp
    rw [List.length_range, if_pos (by omega), List.getElem?_range hrow, hpiece]
    rfl
  · rw [List.getElem?_eq_none (by simpa using hrow)]
    split <;> simp_all

end Region

section Rows

variable [Scalar α]

/-- The separable scan visits the rows of the front of a buffer, and gives each position of a row
the next column. -/
theorem Grid.mixWrites_eq_pieces (g : Grid α) {r : Region} (hw : r.width ≠ 0) {size : ℕ}
    (hsize : r.count ≤ size) :
    g.mixWrites r =
      ((pieces r.width ((List.range size).take r.count)).zip (List.range r.height)).flatMap
        fun (positions, row) => (positions.zip (g.columnCells r)).map fun (p, column) =>
          (p, g.mixAt ⟨column, g.geometry.y.cell (pixelCentre (r.y + row))⟩) := by
  rw [List.take_range, Nat.min_eq_left hsize, Region.zip_pieces_range hw (Nat.le_refl _),
    List.flatMap_map, mixWrites]
  congr 1
  funext row
  apply List.ext_getElem <;> simp [columnCells]

/-- The scan pixel by pixel visits the rows of a buffer as long as the block has rows. -/
theorem pixelWrites_eq_pieces [Circular α] (s : Except (Error α) (Interpolant α)) {r : Region}
    (hw : r.width ≠ 0) {size : ℕ} (hsize : r.count ≤ size) :
    pixelWrites s r =
      ((pieces r.width (List.range size)).zip (List.range r.height)).flatMap
        fun (positions, row) => (positions.zip (List.range r.width)).map fun (p, col) =>
          (p, s.bind fun s => s.pixel (r.x + col) (r.y + row)) := by
  rw [Region.zip_pieces_range hw hsize, List.flatMap_map, pixelWrites]
  congr 1
  funext row
  apply List.ext_getElem <;> simp

end Rows

/-! ## Scans -/

namespace Region

/-- The writes of a scan of the block, row by row. -/
def scan (r : Region) (value : Nat → Nat → Except (Error α) β) :
    List (Nat × Except (Error α) β) :=
  (List.range r.height).flatMap fun row =>
    (List.range r.width).map fun col => (row * r.width + col, value col row)

/-- A scan visits the positions in order. -/
theorem scan_eq_map_range (r : Region) (value : Nat → Nat → Except (Error α) β) :
    r.scan value =
      (List.range r.count).map fun p => (p, value (p % r.width) (p / r.width)) := by
  rw [scan, flatMap_range_map r.width r.height fun col row => (row * r.width + col, value col row)]
  simp only [Nat.div_add_mod', count]

theorem nodup_scan_positions (r : Region) (value : Nat → Nat → Except (Error α) β) :
    ((r.scan value).map Prod.fst).Nodup := by
  rw [scan_eq_map_range, List.map_map]
  simpa [Function.comp_def] using List.nodup_range

theorem lt_count_of_mem_scan {r : Region} {value : Nat → Nat → Except (Error α) β}
    {w : Nat × Except (Error α) β} (hw : w ∈ r.scan value) : w.1 < r.count := by
  rw [scan_eq_map_range] at hw
  obtain ⟨p, hp, rfl⟩ := List.mem_map.mp hw
  exact List.mem_range.mp hp

theorem mem_scan {r : Region} (value : Nat → Nat → Except (Error α) β) {row col : Nat}
    (hrow : row < r.height) (hcol : col < r.width) :
    (row * r.width + col, value col row) ∈ r.scan value :=
  List.mem_flatMap.mpr
    ⟨row, List.mem_range.mpr hrow, List.mem_map.mpr ⟨col, List.mem_range.mpr hcol, rfl⟩⟩

/-- The position of a pixel lies in the block. -/
theorem position_lt_count {r : Region} {row col : Nat} (hrow : row < r.height)
    (hcol : col < r.width) : row * r.width + col < r.count := by
  rw [count, Nat.add_comm]
  exact rowMajor_lt hcol hrow

/-- A scan succeeds if each pixel has a value. -/
theorem outcome_write_scan {r : Region} {value : Nat → Nat → Except (Error α) β}
    {buffer : Array β} (h : ∀ col row, ∃ v, value col row = .ok v) :
    (Filled.write (r.scan value) buffer).outcome = .ok () := by
  rw [Filled.outcome_write_eq_ok_iff]
  intro w hw
  rw [scan_eq_map_range] at hw
  obtain ⟨p, -, rfl⟩ := List.mem_map.mp hw
  exact h _ _

/-- A scan that fails everywhere fails at the first pixel, before any write. -/
theorem write_scan_error {r : Region} (hr : ¬ r.isEmpty) {e : Error α} {buffer : Array β} :
    Filled.write (r.scan fun _ _ => .error e) buffer = .failed buffer e := by
  rw [isEmpty_iff] at hr
  obtain ⟨n, hn⟩ := Nat.exists_eq_succ_of_ne_zero hr
  rw [scan_eq_map_range, hn, List.range_succ_eq_map]
  rfl

/-- Which blocks and buffers pass the check in front of a fill. -/
theorem checkFill_eq_ok_iff {r : Region} {bufferSize : Nat} :
    (r.checkFill bufferSize : Except (Error α) Unit) = .ok () ↔
      r.InRange ∧ r.count ≤ bufferSize := by
  rw [checkFill, pixelCount_eq]
  by_cases hr : r.InRange
  · by_cases hb : bufferSize < r.count
    · simp [hr, hb, bind, Except.bind]
    · simp [hr, bind, Except.bind]
  · simp [hr, bind, Except.bind]

/-- `new` shows the block of these values in front of what `old` holds behind it. -/
structure Shows (r : Region) (value : Nat → Nat → Except (Error α) β) (old new : Array β) :
    Prop where
  size_eq : new.size = old.size
  pixel : ∀ row < r.height, ∀ col < r.width,
    ∃ v, value col row = .ok v ∧ new[row * r.width + col]? = some v
  beyond : ∀ p, r.count ≤ p → new[p]? = old[p]?

namespace Shows

variable {r : Region} {value : Nat → Nat → Except (Error α) β} {old new : Array β}

theorem of_isEmpty (h : r.isEmpty) (buffer : Array β) : r.Shows value buffer buffer where
  size_eq := rfl
  pixel := by
    intro row hrow col hcol
    have hcount : r.count = 0 := isEmpty_iff.mp h
    have hpos := position_lt_count hrow hcol
    omega
  beyond _ _ := rfl

/-- A scan that succeeds shows the block. -/
theorem write_scan (hok : (Filled.write (r.scan value) old).outcome = .ok ())
    (hsize : r.count ≤ old.size) :
    r.Shows value old (Filled.write (r.scan value) old).buffer where
  size_eq := Filled.size_write _ _
  pixel := by
    intro row hrow col hcol
    have hmem := mem_scan value hrow hcol
    obtain ⟨v, hv⟩ := Filled.outcome_write_eq_ok_iff.mp hok _ hmem
    replace hv : value col row = .ok v := hv
    refine ⟨v, hv, ?_⟩
    have hlt := position_lt_count hrow hcol
    exact Filled.getElem?_write_of_mem hok (nodup_scan_positions r value) (hv ▸ hmem) (by omega)
  beyond := by
    intro p hp
    apply Filled.getElem?_write_of_notMem
    intro w hw
    have hlt := lt_count_of_mem_scan hw
    omega

/-- Values of the block written over the front of a buffer. -/
theorem overwrite {values : Array β} (hvalues : values.size = r.count)
    (hsize : r.count ≤ old.size)
    (hpixel : ∀ row < r.height, ∀ col < r.width,
      ∃ v, value col row = .ok v ∧ values[row * r.width + col]? = some v) :
    r.Shows value old (TiePoints.overwrite 0 values old) where
  size_eq := size_overwrite _ _ _
  pixel := by
    intro row hrow col hcol
    obtain ⟨v, hv, hget⟩ := hpixel row hrow col hcol
    have hlt := position_lt_count hrow hcol
    refine ⟨v, hv, ?_⟩
    simpa using getElem?_overwrite_eq_some hget
      (show 0 + (row * r.width + col) < old.size by omega)
  beyond := by
    intro p hp
    exact getElem?_overwrite_of_le (by omega)

/-- The same by position instead of row and column. -/
theorem position (h : r.Shows value old new) {p : Nat} (hp : p < r.count) :
    ∃ v, value (p % r.width) (p / r.width) = .ok v ∧ new[p]? = some v := by
  obtain ⟨hcol, hrow⟩ := rowMajor_place_lt hp
  obtain ⟨v, hv, hnew⟩ := h.pixel _ hrow _ hcol
  rw [Nat.div_add_mod'] at hnew
  exact ⟨v, hv, hnew⟩

end Shows

end Region

end TiePoints
