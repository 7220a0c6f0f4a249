import TiePoints.Sampler

/-!
# Filling blocks

A block of scene pixels is written into a buffer row by row.  A fill checks the
extent of the block and the size of the buffer, in this order, and then makes
one write after the other until all are made or one fails.  What it leaves is
the buffer together with the outcome, so that what a failing fill has written
is part of its meaning.

Bilinear blocks are scanned separably: the cells of the columns are located
once and the cell of a row once for the row.  Blocks of angles are scanned
twice, for sines and for cosines.  Polynomial blocks are evaluated pixel by
pixel.
-/

namespace TiePoints

/-- Whether all pixels of the block have coordinates and positions. -/
def Region.InRange (r : Region) : Prop :=
  r.count < Index.limit ∧ r.x + r.width < Index.limit ∧ r.y + r.height < Index.limit

instance (r : Region) : Decidable r.InRange := inferInstanceAs (Decidable (_ ∧ _ ∧ _))

/-- The number of pixels of a block, if it and the ends of the block are words. -/
def Region.pixelCount {α : Type} (r : Region) : Except (Error α) Nat :=
  match Index.mul? r.width r.height, Index.add? r.x r.width, Index.add? r.y r.height with
  | some n, some _, some _ => .ok n
  | _, _, _ => .error (.geometry (.blockBeyondRange r))

theorem Region.pixelCount_eq {α : Type} (r : Region) :
    (r.pixelCount : Except (Error α) Nat) =
      if r.InRange then .ok r.count else .error (.geometry (.blockBeyondRange r)) := by
  unfold pixelCount Index.mul? Index.add? InRange count
  by_cases hcount : r.width * r.height < Index.limit <;>
    by_cases hx : r.x + r.width < Index.limit <;>
      by_cases hy : r.y + r.height < Index.limit <;> simp [hcount, hx, hy]

def valueBytes : Nat := 8

/-- Whether a table of the values of all pixels can be laid out. -/
def Region.IsStorable (r : Region) : Prop := valueBytes * r.count < Index.storageLimit

instance (r : Region) : Decidable r.IsStorable := inferInstanceAs (Decidable (_ < _))

/-- The extent of a block is checked before the size of the buffer. -/
def Region.checkFill {α : Type} (r : Region) (bufferSize : Nat) : Except (Error α) Unit := do
  let required ← r.pixelCount
  if bufferSize < required then .error (.bufferTooSmall required bufferSize) else .ok ()

/-- The buffer as a fill leaves it, and how the fill ended. -/
structure Filled (α β : Type) where
  buffer : Array β
  outcome : Except (Error α) Unit

namespace Filled

variable {α β : Type}

def done (buffer : Array β) : Filled α β := ⟨buffer, .ok ()⟩

def failed (buffer : Array β) (e : Error α) : Filled α β := ⟨buffer, .error e⟩

def result (f : Filled α β) : Except (Error α) (Array β) := f.outcome.map fun _ => f.buffer

/-- Makes the writes in order and stops at the first that fails. -/
def write : List (Nat × Except (Error α) β) → Array β → Filled α β
  | [], buffer => done buffer
  | (p, .ok v) :: rest, buffer => write rest (buffer.setIfInBounds p v)
  | (_, .error e) :: _, buffer => failed buffer e

theorem size_write (ws : List (Nat × Except (Error α) β)) (buffer : Array β) :
    (write ws buffer).buffer.size = buffer.size := by
  fun_induction write ws buffer with
  | case1 => rfl
  | case2 buffer _ _ _ ih => rw [ih, Array.size_setIfInBounds]
  | case3 => rfl

/-- Positions that no write names keep their values. -/
theorem getElem?_write_of_notMem {ws : List (Nat × Except (Error α) β)} {buffer : Array β}
    {p : Nat} (h : ∀ w ∈ ws, w.1 ≠ p) : (write ws buffer).buffer[p]? = buffer[p]? := by
  fun_induction write ws buffer with
  | case1 => rfl
  | case2 buffer _ _ _ ih =>
    rw [ih fun w hw => h w (List.mem_cons_of_mem _ hw)]
    exact Array.getElem?_setIfInBounds_ne (h _ List.mem_cons_self)
  | case3 => rfl

/-- A run of writes succeeds if and only if each of them does. -/
theorem outcome_write_eq_ok_iff {ws : List (Nat × Except (Error α) β)} {buffer : Array β} :
    (write ws buffer).outcome = .ok () ↔ ∀ w ∈ ws, ∃ v, w.2 = .ok v := by
  fun_induction write ws buffer with
  | case1 => exact iff_of_true rfl (fun _ h => nomatch h)
  | case2 buffer _ _ _ ih =>
    rw [ih, List.forall_mem_cons]
    exact ⟨fun h => ⟨⟨_, rfl⟩, h⟩, fun h => h.2⟩
  | case3 =>
    refine iff_of_false (fun h => nomatch h) fun h => ?_
    obtain ⟨v, hv⟩ := h _ List.mem_cons_self
    cases hv

end Filled

/-- The buffer with the values from position `start` on. -/
def overwrite {β : Type} (start : Nat) (values buffer : Array β) : Array β :=
  buffer.mapIdx fun p old => if start ≤ p then (values[p - start]?).getD old else old

@[simp] theorem size_overwrite {β : Type} (start : Nat) (values buffer : Array β) :
    (overwrite start values buffer).size = buffer.size :=
  Array.size_mapIdx

theorem getElem?_overwrite_of_lt {β : Type} {start p : Nat} {values buffer : Array β}
    (h : p < start) : (overwrite start values buffer)[p]? = buffer[p]? := by
  unfold overwrite
  rw [Array.getElem?_mapIdx]
  simp only [Nat.not_le.2 h, if_false, Option.map_id']

theorem getElem?_overwrite_of_le {β : Type} {start p : Nat} {values buffer : Array β}
    (h : start + values.size ≤ p) : (overwrite start values buffer)[p]? = buffer[p]? := by
  unfold overwrite
  have hp : start ≤ p := by omega
  have hnone : values[p - start]? = none := Array.getElem?_eq_none (by omega)
  rw [Array.getElem?_mapIdx]
  simp only [if_pos hp, hnone, Option.getD_none, Option.map_id']

theorem getElem?_overwrite {β : Type} {start k : Nat} {values buffer : Array β}
    (hk : k < values.size) (h : start + k < buffer.size) :
    (overwrite start values buffer)[start + k]? = some values[k] := by
  unfold overwrite
  rw [Array.getElem?_mapIdx, Array.getElem?_eq_getElem h]
  simp only [Nat.le_add_right, if_true, Nat.add_sub_cancel_left, Array.getElem?_eq_getElem hk,
    Option.getD_some, Option.map_some]

variable {α : Type} [Scalar α]

namespace Grid

/-- The bytes of one located cell: a position and a weight. -/
def cellBytes : Nat := 16

def columnCells (g : Grid α) (r : Region) : List (Cell α) :=
  (List.range r.width).map fun col => g.geometry.x.cell (pixelCentre (r.x + col))

/-- The writes of a separable scan over samples as they are. -/
def mixWrites (g : Grid α) (r : Region) : List (Nat × Except (Error α) α) :=
  let columns := g.columnCells r
  (List.range r.height).flatMap fun row =>
    let rowCell := g.geometry.y.cell (pixelCentre (r.y + row))
    columns.mapIdx fun col column => (row * r.width + col, g.mixAt ⟨column, rowCell⟩)

/-- Fills a block by a separable scan over samples as they are.  The table of
column cells is laid out even if the block has no row. -/
def fillMix (g : Grid α) (r : Region) (buffer : Array α) : Filled α α :=
  if r.width = 0 then .done buffer
  else if Index.storageLimit ≤ cellBytes * r.width then
    .failed buffer (.breach (.cellTable r.width))
  else if r.height = 0 then .done buffer
  else .write (g.mixWrites r) buffer

end Grid

variable [Circular α]

/-- Fills a block of angles: first the sines, then the cosines, then the
direction of each pair. -/
def Components.fill (c : Components α) (d : Discontinuity) (r : Region) (buffer : Array α) :
    Filled α α :=
  let blank := Array.replicate r.count Scalar.zero
  let sines := c.sin.fillMix r blank
  let cosines := c.cos.fillMix r blank
  match sines.outcome, cosines.outcome with
  | .error e, _ => .failed buffer e
  | .ok (), .error e => .failed buffer e
  | .ok (), .ok () => .done (overwrite 0 (sines.buffer.zipWith d.combine cosines.buffer) buffer)

/-- The writes of a scan pixel by pixel, each asking an interpolant that may
have failed to come about. -/
def pixelWrites (s : Except (Error α) (Interpolant α)) (r : Region) :
    List (Nat × Except (Error α) α) :=
  (List.range r.height).flatMap fun row =>
    (List.range r.width).map fun col =>
      (row * r.width + col, s.bind fun s => s.pixel (r.x + col) (r.y + row))

namespace Sampler

/-- Fills a block in any mode.  Polynomials are not asked for if the block has
no pixel. -/
def fill (s : Sampler α) (m : Mode) (r : Region) (buffer : Array α) : Filled α α :=
  match r.checkFill buffer.size with
  | .error e => .failed buffer e
  | .ok () =>
    if m.isPolynomial then
      if r.isEmpty then .done buffer else .write (pixelWrites (s.interpolant m) r) buffer
    else if s.grid.discontinuity.isAngular then
      s.components.get.fill s.grid.discontinuity r buffer
    else s.grid.fillMix r buffer

/-- Fills a block in any mode with pixels of a format.  The values are computed
in a table of their own, which may take more storage than the buffer. -/
def fillAs (s : Sampler α) (f : PixelFormat) (m : Mode) (r : Region) (buffer : Array (Pixel α)) :
    Filled α (Pixel α) :=
  match r.checkFill buffer.size with
  | .error e => .failed buffer e
  | .ok () =>
    if r.IsStorable then
      let values := s.fill m r (Array.replicate r.count Scalar.zero)
      match values.outcome with
      | .error e => .failed buffer e
      | .ok () => .done (overwrite 0 (values.buffer.map f.ofValue) buffer)
    else .failed buffer (.breach (.valueTable r.count))

end Sampler

end TiePoints
