import TiePoints.Proofs.Block.Atomicity
import TiePoints.Proofs.Double.Whole

/-!
# Pixels in other formats

A block in another format holds the point queries at the centres of its pixels,
each brought into that format.  Formats of integers round to the nearest integer
and stop at the bounds of their machine words.  They come to it in two ways, the
one testing whether the rounded number lies between the bounds and the other
clamping it, and both come to the same for every double.
-/

namespace TiePoints

open Double

/-! ## Formats of integers -/

/-- A number that is defined and outside the bounds lies on the side that its sign tells. -/
theorem Whole.getD_within? {lo hi : ℤ} (hlo : lo ≤ 0) (hhi : 0 ≤ hi) {w : Whole}
    (hw : w ≠ .undefined) :
    (w.within? lo hi).getD (if w.isNegative then lo else hi) = w.clamp lo hi := by
  cases w with
  | int n =>
      by_cases hn : lo ≤ n ∧ n ≤ hi
      · simp only [within?, if_pos hn, Option.getD_some, clamp]
        omega
      · by_cases hneg : n < 0
        · simp only [within?, if_neg hn, isNegative, hneg, Option.getD_none, clamp, decide_true,
            if_true]
          omega
        · simp only [within?, if_neg hn, isNegative, hneg, Option.getD_none, clamp, decide_false,
            Bool.false_eq_true, if_false]
          omega
  | posInf => rfl
  | negInf => rfl
  | undefined => exact absurd rfl hw

namespace PixelFormat

/-- The formats of integers with the bounds of their machine words. -/
def machineWords : List (PixelFormat × ℤ × ℤ) :=
  [(int32, -2 ^ 31, 2 ^ 31 - 1), (int16, -2 ^ 15, 2 ^ 15 - 1), (uint16, 0, 2 ^ 16 - 1),
    (uint8, 0, 2 ^ 8 - 1)]

theorem bounds?_of_mem {f : PixelFormat} {lo hi : ℤ} (h : (f, lo, hi) ∈ machineWords) :
    f.bounds? = some (lo, hi) ∧ lo ≤ 0 ∧ 0 ≤ hi := by
  simp only [machineWords, List.mem_cons, Prod.mk.injEq, List.not_mem_nil, or_false] at h
  rcases h with ⟨rfl, rfl, rfl⟩ | ⟨rfl, rfl, rfl⟩ | ⟨rfl, rfl, rfl⟩ | ⟨rfl, rfl, rfl⟩ <;> decide

theorem toInteger_eq_clamp {lo hi : ℤ} (hlo : lo ≤ 0) (hhi : 0 ≤ hi) (v : Float) :
    toInteger lo hi v = (Scalar.toWhole .nearest v).clamp lo hi := by
  unfold toInteger
  split
  · rename_i hnan
    exact ((roundsWithin_clamp lo hi v).undefined hnan).symm
  · rename_i hnan
    exact Whole.getD_within? hlo hhi (toWhole_ne_undefined hnan)

theorem ofValue_eq_clamp {f : PixelFormat} {lo hi : ℤ} (h : (f, lo, hi) ∈ machineWords)
    (v : Float) : f.ofValue v = .whole ((Scalar.toWhole .nearest v).clamp lo hi) := by
  obtain ⟨hbounds, hlo, hhi⟩ := bounds?_of_mem h
  simp only [ofValue, hbounds, toInteger_eq_clamp hlo hhi]

theorem ofValue_int32 (v : Float) : int32.ofValue v = .whole (roundToInt32 v) :=
  ofValue_eq_clamp (by decide) v

end PixelFormat

/-! ## Blocks -/

section Blocks

variable {α : Type} [Scalar α] [Circular α]

/-- A block in another format shows the point queries, each brought into that format. -/
theorem Sampler.shows_fillAs {s : Sampler α} {f : PixelFormat} {m : Mode} {r : Region}
    {buffer : Array (Pixel α)} (hok : (s.fillAs f m r buffer).outcome = .ok ()) :
    r.Shows (fun col row =>
        (s.valueAtMode (pixelCentre (r.x + col)) (pixelCentre (r.y + row)) m).map f.ofValue)
      buffer (s.fillAs f m r buffer).buffer := by
  unfold fillAs at hok ⊢
  cases hcheck : (r.checkFill buffer.size : Except (Error α) Unit) with
  | error e => simp [hcheck, Filled.failed] at hok
  | ok =>
      obtain ⟨-, hsize⟩ := Region.checkFill_eq_ok_iff.mp hcheck
      simp only [hcheck] at hok ⊢
      by_cases hstorable : r.IsStorable
      case neg => simp [hstorable, Filled.failed] at hok
      simp only [if_pos hstorable] at hok ⊢
      cases hvalues : (s.fill m r (Array.replicate r.count Scalar.zero)).outcome with
      | error e => simp [hvalues, Filled.failed] at hok
      | ok =>
          have hshows := shows_fill hvalues
          apply Region.Shows.overwrite
          · simp [hshows.size_eq]
          · exact hsize
          · intro row hrow col hcol
            obtain ⟨v, hv, hget⟩ := hshows.pixel row hrow col hcol
            exact ⟨f.ofValue v, by rw [hv]; rfl, by rw [Array.getElem?_map, hget]; rfl⟩

variable [Decomposition α] {g : Grid α}

/-- Which pixels make a block of their own: those that are not the last position of an axis. -/
theorem Grid.Consistent.outcome_fillAs_pixel_iff (h : g.Consistent) (f : PixelFormat)
    (px py : ℕ) {buffer : Array (Pixel α)} (hsize : 0 < buffer.size) :
    (g.sampler.fillAs f .bilinear ⟨px, py, 1, 1⟩ buffer).outcome = .ok () ↔
      px + 1 < Index.limit ∧ py + 1 < Index.limit := by
  obtain ⟨hends, -⟩ := h.fillAs_ends f .bilinear ⟨px, py, 1, 1⟩ buffer
  have hone : (1 : ℕ) < Index.limit := by decide
  have hcells : Grid.cellBytes * 1 < Index.storageLimit := by decide
  have hvalues : Region.IsStorable ⟨px, py, 1, 1⟩ := show valueBytes * 1 < _ by decide
  constructor
  · intro hok
    by_contra hnot
    have herror := hends.beyondRange fun hrange => hnot hrange.2
    rw [hok] at herror
    cases herror
  · rintro ⟨hx, hy⟩
    exact hends.filled ⟨hone, hx, hy⟩ hsize (fun _ => hvalues) nofun fun _ => hcells

end Blocks

section Queries

variable [Circular Float] [Decomposition Float] {g : Grid Float}

/-- A format of integers takes the nearest integer, a tie going away from zero, within its bounds,
and keeps the order of values.  A block in a format holds the point queries at the centres of its
pixels in that format, and what stands behind the block is kept.  A pixel asked for as an integer
or in single precision is what a block of this one pixel holds in that format. -/
theorem Grid.Consistent.fillAs_eq_formatted_queries (h : g.Consistent) :
    (∀ f lo hi, (f, lo, hi) ∈ PixelFormat.machineWords →
      (∀ v : Float, ∃ n, f.ofValue v = .whole n ∧ RoundsWithin lo hi v n) ∧
      ∀ v w : Float, v ≤ w → ∃ m n, f.ofValue v = .whole m ∧ f.ofValue w = .whole n ∧ m ≤ n) ∧
    (∀ (f : PixelFormat) (m : Mode) (r : Region) (buffer : Array (Pixel Float)),
      (g.sampler.fillAs f m r buffer).outcome = .ok () →
      (g.sampler.fillAs f m r buffer).buffer.size = buffer.size ∧
        (∀ row < r.height, ∀ col < r.width, ∃ v,
          g.sampler.valueAtMode (pixelCentre (r.x + col)) (pixelCentre (r.y + row)) m = .ok v ∧
            (g.sampler.fillAs f m r buffer).buffer[row * r.width + col]? = some (f.ofValue v)) ∧
        ∀ p, r.count ≤ p → (g.sampler.fillAs f m r buffer).buffer[p]? = buffer[p]?) ∧
    ∀ (px py : ℕ) (buffer : Array (Pixel Float)), 0 < buffer.size → ∃ n v,
      g.sampler.pixelInt px py = .ok n ∧ g.sampler.pixelSingle px py = .ok v ∧
        ∀ f p, (f, p) ∈ [(PixelFormat.int32, Pixel.whole n), (.single, .real v)] →
          ((g.sampler.fillAs f .bilinear ⟨px, py, 1, 1⟩ buffer).outcome = .ok () ↔
            px + 1 < Index.limit ∧ py + 1 < Index.limit) ∧
          ((g.sampler.fillAs f .bilinear ⟨px, py, 1, 1⟩ buffer).outcome = .ok () →
            (g.sampler.fillAs f .bilinear ⟨px, py, 1, 1⟩ buffer).buffer[0]? = some p) := by
  refine ⟨?_, ?_, ?_⟩
  · intro f lo hi hf
    obtain ⟨-, hlo, hhi⟩ := PixelFormat.bounds?_of_mem hf
    refine ⟨fun v => ⟨_, PixelFormat.ofValue_eq_clamp hf v, roundsWithin_clamp lo hi v⟩, ?_⟩
    intro v w hvw
    exact ⟨_, _, PixelFormat.ofValue_eq_clamp hf v, PixelFormat.ofValue_eq_clamp hf w,
      clamp_toWhole_mono hlo hhi hvw⟩
  · intro f m r buffer hok
    have hshows := Sampler.shows_fillAs hok
    refine ⟨hshows.size_eq, ?_, hshows.beyond⟩
    intro row hrow col hcol
    obtain ⟨p, hp, hget⟩ := hshows.pixel row hrow col hcol
    obtain ⟨v, hv, rfl⟩ := map_eq_ok.mp hp
    exact ⟨v, hv, hget⟩
  · intro px py buffer hsize
    obtain ⟨a, ha⟩ := h.exists_value (pixelCentre px) (pixelCentre py)
    replace ha : g.sampler.pixel px py = .ok a := ha
    refine ⟨PixelFormat.roundToInt32 a, Scalar.toSingle a, by rw [Sampler.pixelInt, ha]; rfl,
      by rw [Sampler.pixelSingle, ha]; rfl, ?_⟩
    intro f p hf
    have hp : f.ofValue a = p := by
      simp only [List.mem_cons, Prod.mk.injEq, List.not_mem_nil, or_false] at hf
      rcases hf with ⟨rfl, rfl⟩ | ⟨rfl, rfl⟩
      · exact PixelFormat.ofValue_int32 a
      · rfl
    refine ⟨h.outcome_fillAs_pixel_iff f px py hsize, ?_⟩
    intro hok
    obtain ⟨q, hq, hget⟩ := (Sampler.shows_fillAs hok).pixel 0 Nat.one_pos 0 Nat.one_pos
    obtain ⟨b, hb, rfl⟩ := map_eq_ok.mp hq
    replace hb : g.sampler.pixel px py = .ok b := hb
    rw [ha] at hb
    obtain rfl := Except.ok.inj hb
    rw [← hp]
    exact hget

end Queries

/-- Pixels at halves below zero in a buffer that is one longer, a pixel of its own, and values that
a byte cannot hold. -/
theorem fillAs_eq_formatted_queries_at_halves :
    let g : Grid Float :=
      ⟨"levels", none, none, ⟨⟨2, 0.5, 2⟩, ⟨2, 0.5, 2⟩⟩, #[-3, -2, -3, -2], .none⟩
    let filled := g.sampler.fillAs .int32 .bilinear ⟨0, 0, 3, 1⟩
      #[.whole 9, .whole 9, .whole 9, .whole 9]
    filled.outcome = .ok () ∧
      (∀ row < 1, ∀ col < 3, ∃ v,
        g.sampler.valueAtMode (pixelCentre (0 + col)) (pixelCentre (0 + row)) .bilinear = .ok v ∧
          filled.buffer[row * 3 + col]? = some (PixelFormat.int32.ofValue v)) ∧
      filled.buffer[3]? = some (.whole 9) ∧
      (∃ n, g.sampler.pixelInt 1 0 = .ok n ∧
        (g.sampler.fillAs .int32 .bilinear ⟨1, 0, 1, 1⟩ #[.whole 9]).buffer[0]? =
          some (.whole n)) ∧
      (∃ n, PixelFormat.uint8.ofValue (-0.5 : Float) = .whole n ∧
        RoundsWithin 0 (2 ^ 8 - 1) (-0.5) n) ∧
      ∃ m n, PixelFormat.uint8.ofValue (255 : Float) = .whole m ∧
        PixelFormat.uint8.ofValue (1e300 : Float) = .whole n ∧ m ≤ n := by
  intro g filled
  have h : g.Consistent := by decide +kernel
  obtain ⟨hformats, hblocks, hpixels⟩ := Grid.Consistent.fillAs_eq_formatted_queries h
  have hok : filled.outcome = .ok () := by decide +kernel
  obtain ⟨-, hshown, hbeyond⟩ := hblocks _ _ _ _ hok
  obtain ⟨hrounds, hmono⟩ := hformats .uint8 0 (2 ^ 8 - 1) (by decide)
  obtain ⟨n, v, hn, -, hsame⟩ := hpixels 1 0 #[.whole 9] (by decide)
  obtain ⟨hiff, hpixel⟩ := hsame .int32 (.whole n) List.mem_cons_self
  exact ⟨hok, hshown, hbeyond 3 (by decide), ⟨n, hn, hpixel (hiff.mpr ⟨by decide, by decide⟩)⟩,
    hrounds _, hmono _ _ (by decide +kernel)⟩

end TiePoints
