import TiePoints.Proofs.Angle.Range
import TiePoints.Proofs.Block.Outcome

/-!
# Answers of a grid of angles

All queries for bilinear values come down to the value at a place: a lookup of
the grid names the cell of the place it was made for, a pixel stands for its
centre, and a block shows the values at the centres of its pixels.  What holds
of the angle at every place therefore holds of every answer, and the range of
angles is settled for all of them at once.
-/

namespace TiePoints

open Double

/-! ## Answers -/

section Answers

variable {α : Type} [Scalar α] [Circular α] [Decomposition α]

/-- Every bilinear answer `r` for a place `(x, y)` satisfies `P x y r`, and a fill that fails
leaves the buffer as it was. -/
structure Grid.Answers (g : Grid α) (P : α → α → α → Prop) : Prop where
  valueAt : ∀ x y r, g.sampler.valueAt x y = .ok r → P x y r
  valueAtLookup : ∀ x y r,
    g.sampler.valueAtLookup (g.geometry.lookup x y) = .ok r → P x y r
  pixel : ∀ px py r, g.sampler.pixel px py = .ok r → P (pixelCentre px) (pixelCentre py) r
  fill : ∀ (b : Region) (buffer : Array α),
    (g.sampler.fill .bilinear b buffer).outcome = .ok () →
      ∀ row < b.height, ∀ col < b.width, ∃ r,
        (g.sampler.fill .bilinear b buffer).buffer[row * b.width + col]? = some r ∧
          P (pixelCentre (b.x + col)) (pixelCentre (b.y + row)) r
  failed : ∀ (b : Region) (buffer : Array α) (e : Error α),
    (g.sampler.fill .bilinear b buffer).outcome = .error e →
      (g.sampler.fill .bilinear b buffer).buffer = buffer

namespace Grid

variable {g : Grid α} {P : α → α → α → Prop}

theorem buffer_fill_of_error (ha : g.discontinuity.isAngular) {b : Region} {buffer : Array α}
    {e : Error α} (h : (g.sampler.fill .bilinear b buffer).outcome = .error e) :
    (g.sampler.fill .bilinear b buffer).buffer = buffer := by
  cases hcheck : (b.checkFill buffer.size : Except (Error α) Unit) with
  | error e => simp only [Sampler.fill, hcheck, Filled.failed]
  | ok =>
      have hfill : g.sampler.fill .bilinear b buffer =
          g.components.fill g.discontinuity b buffer := by
        rw [Sampler.fill_of_checkFill hcheck]
        exact if_pos ha
      rw [hfill] at h ⊢
      exact Components.buffer_fill_of_error h

/-- What holds of the angle at every place holds of every answer. -/
theorem Answers.of_valueAt (ha : g.discontinuity.isAngular)
    (h : ∀ x y r, g.sampler.valueAt x y = .ok r → P x y r) : g.Answers P where
  valueAt := h
  valueAtLookup := by
    intro x y r hr
    rw [valueAtLookup_lookup] at hr
    exact h x y r hr
  pixel := fun _ _ => h _ _
  fill := by
    intro b buffer hok row hrow col hcol
    obtain ⟨r, hr, hget⟩ := (Sampler.shows_fill hok).pixel row hrow col hcol
    exact ⟨r, hget, h _ _ r hr⟩
  failed := fun _ _ _ => buffer_fill_of_error ha

/-- The angle at a place is the direction of the two components there. -/
theorem valueAt_eq_ok_iff (ha : g.discontinuity.isAngular) {x y r : α} :
    g.sampler.valueAt x y = .ok r ↔ ∃ s c, g.components.sin.mixAtPlace x y = .ok s ∧
      g.components.cos.mixAtPlace x y = .ok c ∧ g.discontinuity.combine s c = r := by
  rw [Sampler.valueAt_of_isAngular ha, components_sampler, grid_sampler]
  simp [Components.mixAtPlace, bind_eq_ok, pure, Except.pure]

end Grid

end Answers

/-! ## Tables -/

/-- The function with the values of a table, and zero elsewhere. -/
def tabulated {κ : Type} [BEq κ] (table : List (κ × Float)) (x : κ) : Float :=
  (table.lookup x).getD 0

theorem tabulated_mem {κ : Type} [BEq κ] {lo hi : Float} (h0 : lo ≤ 0 ∧ 0 ≤ hi)
    {table : List (κ × Float)} (h : ∀ p ∈ table, lo ≤ p.2 ∧ p.2 ≤ hi) (x : κ) :
    lo ≤ tabulated table x ∧ tabulated table x ≤ hi := by
  induction table with
  | nil => exact h0
  | cons p table ih =>
      unfold tabulated
      rw [List.lookup_cons]
      split
      · exact h p List.mem_cons_self
      · exact ih fun q hq => h q (List.mem_cons_of_mem p hq)

/-- Functions of angles at 2 and 10 degrees on both sides of north and of the date line, and
directions of mixtures of these. -/
@[reducible] def tabulatedCircular : Circular Float where
  pi := piDouble
  sin := tabulated
    [(6.2482787221397, -0.034899496702500823), (0.03490658503988659, 0.03489949670250097),
      (2.9670597283903604, 0.17364817766693028), (-2.9670597283903604, -0.17364817766693028)]
  cos := tabulated
    [(6.2482787221397, 0.9993908270190958), (0.03490658503988659, 0.9993908270190958),
      (2.9670597283903604, -0.984807753012208), (-2.9670597283903604, -0.984807753012208)]
  atan2 := fun y x => tabulated
    [((-6.938893903907228e-18, 0.9993908405303955), -6.943123373258681e-18),
      ((0.017449747771024704, 0.9993908405303955), 0.017458609900374403),
      ((-2.7755575615628914e-17, -0.9848077297210693), -3.141592653589793),
      ((-0.08682408928871155, -0.9848077297210693), -3.053656527038357)] (y, x)

theorem documented_tabulatedCircular : tabulatedCircular.Documented where
  pi_eq := rfl
  sin_mem := fun x _ => tabulated_mem (by decide +kernel) (by decide +kernel) x
  cos_mem := fun x _ => tabulated_mem (by decide +kernel) (by decide +kernel) x
  atan2_mem := fun y x _ _ => tabulated_mem (by decide +kernel) (by decide +kernel) (y, x)

def squareGeometry : Geometry Float := ⟨⟨2, 0.5, 10⟩, ⟨2, 0.5, 10⟩⟩

/-- Two rows of the same two angles. -/
def fourAngles (west east : Float) (d : Discontinuity) : Grid Float :=
  ⟨"azimuth", none, none, squareGeometry, #[west, east, west, east], d⟩

theorem valid_squareGeometry : squareGeometry.Valid 4 := by
  constructor <;> decide +kernel

theorem consistent_fourAngles (west east : Float) (d : Discontinuity) :
    (fourAngles west east d).Consistent :=
  ⟨valid_squareGeometry⟩

/-! ## Ranges -/

variable [libm : Circular Float]

/-- An angle from 0 to 360, and 360 only for a direction that is on the brink below zero. -/
def Grid.InTurn (g : Grid Float) (x y r : Float) : Prop :=
  ∃ s c, g.components.sin.mixAtPlace x y = .ok s ∧ g.components.cos.mixAtPlace x y = .ok c ∧
    0 ≤ r ∧ r ≤ 360 ∧ (r < 360 ↔ ¬ (brink ≤ Circular.toDegrees (Circular.atan2 s c) ∧
      Circular.toDegrees (Circular.atan2 s c) < 0))

/-- An angle from -180 to 180, and -180 only for the direction `-π`. -/
def Grid.InHalfTurns (g : Grid Float) (x y r : Float) : Prop :=
  ∃ s c, g.components.sin.mixAtPlace x y = .ok s ∧ g.components.cos.mixAtPlace x y = .ok c ∧
    -180 ≤ r ∧ r ≤ 180 ∧ (-180 < r ↔ Circular.atan2 s c ≠ -Circular.pi)

namespace Grid

variable {g : Grid Float}

/-- A grid of finite angles answers by directions of pairs of numbers, and a consistent one at
every place. -/
theorem answers_of_components [Decomposition Float] (hlib : libm.Documented)
    (hwidth : g.width ≤ Index.limit) (hheight : g.height ≤ Index.limit)
    (hfinite : ∀ a ∈ g.samples, Scalar.isFinite a)
    (ha : g.discontinuity.isAngular) {P : Float → Float → Float → Prop}
    (hP : ∀ {x y s c}, g.components.sin.mixAtPlace x y = .ok s →
      g.components.cos.mixAtPlace x y = .ok c → Scalar.isFinite s → Scalar.isFinite c →
        P x y (g.discontinuity.combine s c)) :
    g.Answers P ∧ (g.Consistent → ∀ x y, ∃ r, g.sampler.valueAt x y = .ok r) := by
  constructor
  · apply Answers.of_valueAt ha
    intro x y r hr
    obtain ⟨s, c, hs, hc, rfl⟩ := (valueAt_eq_ok_iff ha).mp hr
    obtain ⟨hsfin, hcfin⟩ := hlib.isFinite_components hwidth hheight hfinite hs hc
    exact hP hs hc hsfin hcfin
  · exact fun h => h.exists_value

/-- Where angles wrap at 360 every answer lies between 0 and 360, and the end at 360 is met
if and only if the direction is on the brink below zero. -/
theorem answers_inTurn [Decomposition Float] (hlib : libm.Documented)
    (hwidth : g.width ≤ Index.limit) (hheight : g.height ≤ Index.limit)
    (hfinite : ∀ a ∈ g.samples, Scalar.isFinite a)
    (hd : g.discontinuity = .at360) :
    g.Answers g.InTurn ∧ (g.Consistent → ∀ x y, ∃ r, g.sampler.valueAt x y = .ok r) := by
  apply answers_of_components hlib hwidth hheight hfinite (by rw [hd]; rfl)
  intro x y s c hs hc hsfin hcfin
  rw [hd]
  exact ⟨s, c, hs, hc, hlib.combine_at360_range hsfin hcfin⟩

omit libm in
/-- Between 358 and 2 degrees, past the middle. -/
theorem answers_inTurn_east_of_north :
    let libm : Circular Float := tabulatedCircular
    let g := fourAngles 358 2 .at360
    libm.Documented ∧ ∃ r, g.sampler.valueAt 8 0.5 = .ok r ∧ 0 ≤ r ∧ r < 360 := by
  intro libm g
  have h : g.Consistent := consistent_fourAngles _ _ _
  obtain ⟨hanswers, hexists⟩ := answers_inTurn (g := g) documented_tabulatedCircular
    h.width_lt.le h.height_lt.le (by decide +kernel) rfl
  obtain ⟨r, hr⟩ := hexists h 8 0.5
  obtain ⟨s, c, hs, hc, hlow, -, hend⟩ := hanswers.valueAt 8 0.5 r hr
  have hsin : g.components.sin.mixAtPlace 8 0.5 = .ok 0.017449747771024704 := by decide +kernel
  have hcos : g.components.cos.mixAtPlace 8 0.5 = .ok 0.9993908405303955 := by decide +kernel
  obtain rfl := Except.ok.inj (hs.symm.trans hsin)
  obtain rfl := Except.ok.inj (hc.symm.trans hcos)
  exact ⟨documented_tabulatedCircular, r, hr, hlow, hend.mpr (by decide +kernel)⟩

omit libm in
/-- Just before the middle between 358 and 2 degrees the end of the turn is met. -/
theorem valueAt_eq_360_west_of_north :
    let libm : Circular Float := tabulatedCircular
    let g := fourAngles 358 2 .at360
    libm.Documented ∧ g.Consistent ∧ (∀ a ∈ g.samples, Scalar.isFinite a) ∧
      g.sampler.valueAt 5.499999999999999 0.5 = .ok 360 := by
  intro libm g
  exact ⟨documented_tabulatedCircular, consistent_fourAngles _ _ _, by decide +kernel,
    by decide +kernel⟩

/-- Where angles wrap at 180 every answer lies between -180 and 180, and the end at -180 is met
if and only if the direction is `-π`. -/
theorem answers_inHalfTurns [Decomposition Float] (hlib : libm.Documented)
    (hwidth : g.width ≤ Index.limit) (hheight : g.height ≤ Index.limit)
    (hfinite : ∀ a ∈ g.samples, Scalar.isFinite a)
    (hd : g.discontinuity = .at180) :
    g.Answers g.InHalfTurns ∧ (g.Consistent → ∀ x y, ∃ r, g.sampler.valueAt x y = .ok r) := by
  apply answers_of_components hlib hwidth hheight hfinite (by rw [hd]; rfl)
  intro x y s c hs hc hsfin hcfin
  rw [hd]
  exact ⟨s, c, hs, hc, hlib.combine_at180_range hsfin hcfin⟩

omit libm in
/-- Between 170 and -170 degrees, past the middle. -/
theorem answers_inHalfTurns_past_date_line :
    let libm : Circular Float := tabulatedCircular
    let g := fourAngles 170 (-170) .at180
    libm.Documented ∧ ∃ r, g.sampler.valueAt 8 0.5 = .ok r ∧ -180 < r ∧ r ≤ 180 := by
  intro libm g
  have h : g.Consistent := consistent_fourAngles _ _ _
  obtain ⟨hanswers, hexists⟩ := answers_inHalfTurns (g := g) documented_tabulatedCircular
    h.width_lt.le h.height_lt.le (by decide +kernel) rfl
  obtain ⟨r, hr⟩ := hexists h 8 0.5
  obtain ⟨s, c, hs, hc, -, hhigh, hend⟩ := hanswers.valueAt 8 0.5 r hr
  have hsin : g.components.sin.mixAtPlace 8 0.5 = .ok (-0.08682408928871155) := by decide +kernel
  have hcos : g.components.cos.mixAtPlace 8 0.5 = .ok (-0.9848077297210693) := by decide +kernel
  obtain rfl := Except.ok.inj (hs.symm.trans hsin)
  obtain rfl := Except.ok.inj (hc.symm.trans hcos)
  exact ⟨documented_tabulatedCircular, r, hr, hend.mpr (by decide +kernel), hhigh⟩

omit libm in
/-- Just past the middle between 170 and -170 degrees the end of the half turn is met. -/
theorem valueAt_eq_neg_180_past_date_line :
    let libm : Circular Float := tabulatedCircular
    let g := fourAngles 170 (-170) .at180
    libm.Documented ∧ g.Consistent ∧ (∀ a ∈ g.samples, Scalar.isFinite a) ∧
      g.sampler.valueAt 5.500000000000001 0.5 = .ok (-180) := by
  intro libm g
  exact ⟨documented_tabulatedCircular, consistent_fourAngles _ _ _, by decide +kernel,
    by decide +kernel⟩

end Grid

end TiePoints
