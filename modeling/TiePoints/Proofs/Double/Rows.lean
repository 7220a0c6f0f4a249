import TiePoints.Grid.Basic
import TiePoints.Proofs.Double.Split

/-!
# The row of a coordinate, found in two ways

Bilinear lookup clamps the quotient of a coordinate to the grid and then splits
it into the first row of a cell and a weight.  Row selection rounds the quotient
down first and keeps the result in the grid.  Both go by the clamped quotient:
the split loses no digit of it, and rounding down commutes with clamping.  They
part at the far end of the grid alone, where no cell starts.
-/

namespace TiePoints.Double

open Float.Model

variable {x y : Float}

/-- What a double becomes when it is held between zero and a bound: nothing tells where an
undefined one lies, so that it becomes zero, and an infinite one becomes the end on its side. -/
structure HeldWithin (hi : ℚ) (x : Float) (c : ℚ) : Prop where
  undefined : Scalar.isNaN x → c = 0
  finite : Scalar.isFinite x → c = max 0 (min (value x) hi)
  above : ¬ Scalar.isFinite x → Scalar.zero < x → c = hi
  below : ¬ Scalar.isFinite x → x < Scalar.zero → c = 0

/-! ## Kinds of doubles -/

theorem zero_lt_of_unpack (h : x.toModel.unpack = .infinity .positive) :
    ¬ Scalar.isFinite x ∧ Scalar.zero < x := by
  have hzero : (Scalar.zero : Float).toModel.unpack = .zero .positive := rfl
  have hlt : UnpackedFloat.lt (Scalar.zero : Float).toModel.unpack x.toModel.unpack = true := by
    rw [hzero, h]
    rfl
  have hfin : ¬ x.toModel.unpack.isFinite = true := by
    rw [h]
    exact Bool.false_ne_true
  exact ⟨hfin, decide_eq_true hlt⟩

theorem lt_zero_of_unpack (h : x.toModel.unpack = .infinity .negative) :
    ¬ Scalar.isFinite x ∧ x < Scalar.zero := by
  have hzero : (Scalar.zero : Float).toModel.unpack = .zero .positive := rfl
  have hlt : UnpackedFloat.lt x.toModel.unpack (Scalar.zero : Float).toModel.unpack = true := by
    rw [hzero, h]
    rfl
  have hfin : ¬ x.toModel.unpack.isFinite = true := by
    rw [h]
    exact Bool.false_ne_true
  exact ⟨hfin, decide_eq_true hlt⟩

theorem isNaN_or_isFinite_or (x : Float) :
    Scalar.isNaN x ∨ Scalar.isFinite x ∨ (¬ Scalar.isFinite x ∧ Scalar.zero < x) ∨
      ¬ Scalar.isFinite x ∧ x < Scalar.zero := by
  have hnan : Scalar.isNaN x = x.toModel.unpack.isNaN := rfl
  have hfin : Scalar.isFinite x = x.toModel.unpack.isFinite := rfl
  cases hu : x.toModel.unpack with
  | notANumber => exact .inl (by rw [hnan, hu]; rfl)
  | infinity s =>
    cases s with
    | positive => exact .inr (.inr (.inl (zero_lt_of_unpack hu)))
    | negative => exact .inr (.inr (.inr (lt_zero_of_unpack hu)))
  | zero s => exact .inr (.inl (by rw [hfin, hu]; rfl))
  | finite s m e h => exact .inr (.inl (by rw [hfin, hu]; rfl))

theorem not_lt_zero_of_zero_lt (hx : ¬ Scalar.isFinite x) (h : Scalar.zero < x) :
    ¬ x < Scalar.zero := by
  intro h'
  have heq := (unpack_eq_posInf hx h).symm.trans (unpack_eq_negInf hx h')
  exact nomatch heq

theorem not_isNaN_of_zero_lt (hx : ¬ Scalar.isFinite x) (h : Scalar.zero < x) :
    ¬ Scalar.isNaN x := by
  change ¬ x.toModel.unpack.isNaN = true
  rw [unpack_eq_posInf hx h]
  exact Bool.false_ne_true

/-! ## Held quotients -/

namespace HeldWithin

variable {hi c d : ℚ}

theorem mem (h : HeldWithin hi x c) (hhi : 0 ≤ hi) : 0 ≤ c ∧ c ≤ hi := by
  rcases isNaN_or_isFinite_or x with hx | hx | ⟨hx, hpos⟩ | ⟨hx, hneg⟩
  · rw [h.undefined hx]
    exact ⟨le_rfl, hhi⟩
  · rw [h.finite hx]
    exact ⟨le_max_left _ _, max_le hhi (min_le_right _ _)⟩
  · rw [h.above hx hpos]
    exact ⟨hhi, le_rfl⟩
  · rw [h.below hx hneg]
    exact ⟨le_rfl, hhi⟩

theorem mono (hx : HeldWithin hi x c) (hy : HeldWithin hi y d) (hhi : 0 ≤ hi) (h : x ≤ y) :
    c ≤ d := by
  rcases isFinite_or_of_le h with ⟨hfx, hfy⟩ | hinf | hinf
  · rw [hx.finite hfx, hy.finite hfy]
    exact max_le_max_left _ (min_le_min_right _ ((le_iff_value_le hfx hfy).mp h))
  · obtain ⟨hfin, hneg⟩ := lt_zero_of_unpack hinf
    rw [hx.below hfin hneg]
    exact (hy.mem hhi).1
  · obtain ⟨hfin, hpos⟩ := zero_lt_of_unpack hinf
    rw [hy.above hfin hpos]
    exact (hx.mem hhi).2

end HeldWithin

theorem heldWithin_clampedIndex {n : ℕ} (hn : n ≤ 2 ^ 53) (x : Float) :
    Scalar.isFinite (clampedIndex n x) ∧
      HeldWithin (n - 1 : ℕ) x (value (clampedIndex n x)) := by
  have hlo : value (Scalar.zero : Float) = 0 := rfl
  have hlofin : Scalar.isFinite (Scalar.zero : Float) := rfl
  have hhi : value (Scalar.ofNat (n - 1) : Float) = (n - 1 : ℕ) := value_ofNat (by omega)
  have hhifin : Scalar.isFinite (Scalar.ofNat (n - 1) : Float) := isFinite_ofNat (by omega)
  have hnonneg : (0 : ℚ) ≤ (n - 1 : ℕ) := Nat.cast_nonneg _
  unfold clampedIndex Scalar.clamp
  split_ifs with hnan hbelow habove
  · exact ⟨hlofin, fun _ => hlo, fun hx => absurd hnan (not_isNaN_of_isFinite hx),
      fun hx hpos => absurd hnan (not_isNaN_of_zero_lt hx hpos), fun _ _ => hlo⟩
  · refine ⟨hlofin, fun hx => absurd hx hnan, fun hx => ?_, ?_, fun _ _ => hlo⟩
    · rw [lt_iff_value_lt hx hlofin, hlo] at hbelow
      rw [hlo, min_eq_left (hbelow.le.trans hnonneg), max_eq_left hbelow.le]
    · exact fun hx hpos => absurd hbelow (not_lt_zero_of_zero_lt hx hpos)
  · refine ⟨hhifin, fun hx => absurd hx hnan, fun hx => ?_, fun _ _ => hhi, ?_⟩
    · rw [lt_iff_value_lt hhifin hx, hhi] at habove
      rw [hhi, min_eq_right habove.le, max_eq_right hnonneg]
    · exact fun _ hneg => absurd hneg hbelow
  · have hx := isFinite_of_not_lt hnan hlofin hhifin hbelow habove
    refine ⟨hx, fun h => absurd h hnan, fun _ => ?_, fun h => absurd hx h, fun h => absurd hx h⟩
    rw [lt_iff_value_lt hx hlofin, hlo, not_lt] at hbelow
    rw [lt_iff_value_lt hhifin hx, hhi, not_lt] at habove
    rw [min_eq_left habove, max_eq_right hbelow]

/-- Rounding down and clamping to a whole number is clamping and rounding down. -/
theorem HeldWithin.min_floorIndex {n : ℕ} (hn : n < Index.limit) {c : ℚ}
    (h : HeldWithin n x c) : min (Scalar.floorIndex x) n = ⌊c⌋₊ := by
  have hlimit : Index.limit = 18446744073709551616 := rfl
  have hindex : Scalar.floorIndex x = (toWhole .down x).toIndex := rfl
  rcases isNaN_or_isFinite_or x with hx | hx | ⟨hx, hpos⟩ | ⟨hx, hneg⟩
  · have hwhole : toWhole .down x = .undefined := by
      have hnan : x.toModel.unpack.isNaN = true := hx
      unfold toWhole
      cases hu : x.toModel.unpack with
      | notANumber => rfl
      | _ => rw [hu] at hnan; cases hnan
    rw [h.undefined hx, Nat.floor_zero, hindex, hwhole]
    exact Nat.zero_min n
  · have hwhole : toWhole .down x = .int ⌊value x⌋ := toWhole_down hx
    rw [h.finite hx, Nat.floor_mono.map_max, Nat.floor_mono.map_min, Nat.floor_zero,
      Nat.floor_natCast, ← Int.floor_toNat, hindex, hwhole, Whole.toIndex, Whole.clamp]
    omega
  · rw [h.above hx hpos, Nat.floor_natCast, hindex, toWhole, unpack_eq_posInf hx hpos,
      Whole.toIndex, Whole.clamp]
    omega
  · rw [h.below hx hneg, Nat.floor_zero, hindex, toWhole, unpack_eq_negInf hx hneg]
    exact Nat.zero_min n

/-- The clamped quotient is split into the first row of the cell and the weight, without a
rounding. -/
theorem locate_split {n : ℕ} (htwo : 2 ≤ n) (hn : n ≤ 2 ^ 53) (x : Float) :
    let cell := Cell.locate n x
    let c := value (clampedIndex n x)
    cell.origin = min ⌊c⌋₊ (n - 2) ∧ Scalar.isFinite cell.weight ∧
      0 ≤ value cell.weight ∧ value cell.weight ≤ 1 ∧ c = cell.origin + value cell.weight := by
  intro cell c
  have hlimit : Index.limit = 18446744073709551616 := rfl
  obtain ⟨hfin, hheld⟩ := heldWithin_clampedIndex hn x
  obtain ⟨hlow, hhigh⟩ := hheld.mem (Nat.cast_nonneg _)
  have hself : HeldWithin (n - 1 : ℕ) (clampedIndex n x) c := by
    refine ⟨fun h => absurd h (not_isNaN_of_isFinite hfin), fun _ => ?_, fun h => absurd hfin h,
      fun h => absurd hfin h⟩
    rw [min_eq_left hhigh, max_eq_right hlow]
  have horigin : cell.origin = min ⌊c⌋₊ (n - 2) := by
    have hfloor := hself.min_floorIndex (by omega)
    have hdef : cell.origin = min (Scalar.floorIndex (clampedIndex n x)) (n - 2) := rfl
    omega
  have hbelow : (cell.origin : ℚ) ≤ c := by
    rw [horigin]
    exact (Nat.cast_le.mpr (min_le_left _ _)).trans (Nat.floor_le hlow)
  have habove : c ≤ cell.origin + 1 := by
    rw [horigin]
    rcases le_total ⌊c⌋₊ (n - 2) with hle | hle
    · rw [min_eq_left hle]
      exact (Nat.lt_floor_add_one c).le
    · rw [min_eq_right hle, ← Nat.cast_succ]
      exact hhigh.trans (Nat.cast_le.mpr (by omega))
  obtain ⟨hweight, hvalue⟩ := value_sub_ofNat hfin (by omega) hbelow habove
  have hdef : cell.weight = clampedIndex n x - Scalar.ofNat cell.origin := rfl
  rw [← hdef] at hweight hvalue
  exact ⟨horigin, hweight, by linarith, by linarith, by linarith⟩

/-- The cell starts in the grid, and its first row and weight make up the clamped quotient. -/
theorem heldWithin_cell {n : ℕ} (htwo : 2 ≤ n) (hn : n ≤ 2 ^ 53) (x : Float) :
    HeldWithin (n - 1 : ℕ) x ((Cell.locate n x).origin + value (Cell.locate n x).weight) := by
  obtain ⟨-, -, -, -, hsplit⟩ := locate_split htwo hn x
  rw [← hsplit]
  exact (heldWithin_clampedIndex hn x).2

/-- The weight of a cell is at most one, and one at the far end only.  The row selected is the one
that the cell starts with, and at the far end the next. -/
theorem locate_row {n : ℕ} (htwo : 2 ≤ n) (hn : n ≤ 2 ^ 53) (x : Float) :
    let cell := Cell.locate n x
    let row := min (Scalar.floorIndex x) (n - 1)
    Scalar.zero ≤ cell.weight ∧ cell.weight ≤ Scalar.one ∧
      (cell.weight < Scalar.one ∧ row = cell.origin ∨
        cell.weight = Scalar.one ∧ row = cell.origin + 1 ∧
          (cell.origin + value cell.weight : ℚ) = (n - 1 : ℕ)) := by
  intro cell row
  have hlimit : Index.limit = 18446744073709551616 := rfl
  obtain ⟨horigin, hweight, hnonneg, hle, hsplit⟩ := locate_split htwo hn x
  have hheld := (heldWithin_clampedIndex hn x).2
  have hlow := (hheld.mem (Nat.cast_nonneg _)).1
  have hrow : row = ⌊value (clampedIndex n x)⌋₊ := hheld.min_floorIndex (by omega)
  generalize value (clampedIndex n x) = c at horigin hsplit hlow hrow
  change cell.origin = _ at horigin
  have hfone : Scalar.isFinite (Scalar.one : Float) := isFinite_ofNat (by decide)
  have hone : value (Scalar.one : Float) = 1 := by
    rw [← Nat.cast_one]
    exact value_ofNat (by decide)
  refine ⟨(le_iff_value_le rfl hweight).mpr hnonneg,
    (le_iff_value_le hweight hfone).mpr (hle.trans_eq hone.symm), ?_⟩
  rcases hle.lt_or_eq with hlt | heq
  · left
    refine ⟨(lt_iff_value_lt hweight hfone).mpr (hlt.trans_eq hone.symm), ?_⟩
    rw [hrow, Nat.floor_eq_iff hlow, hsplit]
    exact ⟨le_add_of_nonneg_right hnonneg, by linarith⟩
  · right
    have hnext : ⌊c⌋₊ = cell.origin + 1 := by
      rw [hsplit, heq, ← Nat.cast_succ, Nat.floor_natCast]
    refine ⟨eq_of_value_eq hweight hfone (heq.trans hone.symm) ?_, hrow.trans hnext, ?_⟩
    · rw [heq]
      exact one_ne_zero
    · -- no cell starts at the last row
      rw [heq, ← Nat.cast_succ]
      congr 1
      omega

theorem locate_mono {n : ℕ} (htwo : 2 ≤ n) (hn : n ≤ 2 ^ 53) (h : x ≤ y) :
    let cell := Cell.locate n x
    let next := Cell.locate n y
    cell.origin ≤ next.origin ∧
      (cell.origin + value cell.weight : ℚ) ≤ next.origin + value next.weight ∧
      min (Scalar.floorIndex x) (n - 1) ≤ min (Scalar.floorIndex y) (n - 1) := by
  intro cell next
  have hlimit : Index.limit = 18446744073709551616 := rfl
  have hcell := heldWithin_cell htwo hn x
  have hnext := heldWithin_cell htwo hn y
  have hle := hcell.mono hnext (Nat.cast_nonneg _) h
  have hfloor := Nat.floor_mono hle
  obtain ⟨horigin, -, -, -, hsplit⟩ := locate_split htwo hn x
  obtain ⟨horigin', -, -, -, hsplit'⟩ := locate_split htwo hn y
  refine ⟨?_, hle, ?_⟩
  · rw [horigin, horigin', hsplit, hsplit']
    exact min_le_min_right _ hfloor
  · rw [hcell.min_floorIndex (by omega), hnext.min_floorIndex (by omega)]
    exact hfloor

/-- The row of a cell and the row selected for a polynomial are found from the clamped quotient,
which the cell keeps in full.  They are the same row, unless the quotient is held at the far end of
the grid: there the cell starts a row earlier and the weight is one.  Neither gets smaller when the
quotient grows. -/
theorem row_selectors_agree {g : Grid Float} (h : g.geometry.Valid g.samples.size)
    (hheight : g.height ≤ 2 ^ 53) (x y : Float) :
    let rows := g.geometry.y
    let cell := (g.geometry.lookup x y).row
    cell.origin ≤ g.height - 2 ∧ Scalar.isFinite cell.weight ∧
      Scalar.zero ≤ cell.weight ∧ cell.weight ≤ Scalar.one ∧
      HeldWithin (g.height - 1 : ℕ) (rows.fractionalIndex y) (cell.origin + value cell.weight) ∧
      rows.pointBefore y ≤ g.height - 1 ∧
      (cell.weight < Scalar.one ∧ rows.pointBefore y = cell.origin ∨
        cell.weight = Scalar.one ∧ rows.pointBefore y = cell.origin + 1 ∧
          (cell.origin + value cell.weight : ℚ) = (g.height - 1 : ℕ)) ∧
      ∀ y', rows.fractionalIndex y ≤ rows.fractionalIndex y' →
        let next := (g.geometry.lookup x y').row
        cell.origin ≤ next.origin ∧
          (cell.origin + value cell.weight : ℚ) ≤ next.origin + value next.weight ∧
          rows.pointBefore y ≤ rows.pointBefore y' := by
  intro rows cell
  have htwo : 2 ≤ g.height := h.height
  obtain ⟨-, hfin, -⟩ := locate_split htwo hheight (rows.fractionalIndex y)
  obtain ⟨hnonneg, hle, hrow⟩ := locate_row htwo hheight (rows.fractionalIndex y)
  exact ⟨Cell.locate_origin_le _ _, hfin, hnonneg, hle, heldWithin_cell htwo hheight _,
    Nat.min_le_right _ _, hrow, fun y' hy => locate_mono htwo hheight hy⟩

/-- The row of an infinite coordinate, and of one that is not a number. -/
theorem row_selectors_agree_beyond_numbers :
    let g : Grid Float := ⟨"altitude", none, none, ⟨⟨2, 0.5, 1⟩, ⟨3, 0.5, 2⟩⟩,
      #[1, 2, 4, 8, 16, 32], .none⟩
    let rows := g.geometry.y
    let last := (g.geometry.lookup 0.5 (1 / 0)).row
    let first := (g.geometry.lookup 0.5 (0 / 0)).row
    last = ⟨1, 1⟩ ∧ rows.pointBefore (1 / 0) = 2 ∧ first = ⟨0, 0⟩ ∧ rows.pointBefore (0 / 0) = 0 ∧
      (last.weight < Scalar.one ∧ rows.pointBefore (1 / 0) = last.origin ∨
        last.weight = Scalar.one ∧ rows.pointBefore (1 / 0) = last.origin + 1 ∧
          (last.origin + value last.weight : ℚ) = (2 : ℕ)) ∧
      (last.origin : ℚ) + value last.weight = 2 ∧
      (first.origin : ℚ) + value first.weight = 0 := by
  intro g rows last first
  have h : g.geometry.Valid g.samples.size := by
    constructor <;> decide +kernel
  have hheight : g.height ≤ 2 ^ 53 := by decide
  obtain ⟨-, -, -, -, hlast, -, hrow, -⟩ := row_selectors_agree h hheight 0.5 (1 / 0)
  obtain ⟨-, -, -, -, hfirst, -⟩ := row_selectors_agree h hheight 0.5 (0 / 0)
  exact ⟨by decide +kernel, by decide +kernel, by decide +kernel, by decide +kernel, hrow,
    hlast.above (by decide +kernel) (by decide +kernel), hfirst.undefined (by decide +kernel)⟩

end TiePoints.Double
