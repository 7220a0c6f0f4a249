import TiePoints.Proofs.Block.Outcome
import TiePoints.Request

/-!
# How requests fail

A request to a consistent grid fails because it is refused, because a fit fails,
or because its tables cannot be stored.  It never fails for want of a sample or
of a fitted row, nor for a position that is no word: these are asked for only
where they are.  This is shown layer by layer, since a computation stays inside
its tables if each of its steps does.
-/

namespace TiePoints

/-- Whether an element was asked for that is not there, or a position computed that is no word. -/
def Error.IsAccess {α : Type} : Error α → Prop
  | .breach (.sum _ _) => True
  | .breach (.product _ _) => True
  | .breach (.sampleIndex _ _) => True
  | .breach (.rowIndex _ _) => True
  | _ => False

/-- Whatever the computation fails for, it is not an element that is not there. -/
def StaysInside {α β : Type} (x : Except (Error α) β) : Prop :=
  ∀ e, x = .error e → ¬ e.IsAccess

namespace StaysInside

variable {α β γ : Type}

theorem ok (b : β) : StaysInside (.ok b : Except (Error α) β) := nofun

theorem error {e : Error α} (h : ¬ e.IsAccess) : StaysInside (.error e : Except (Error α) β) := by
  rintro _ ⟨rfl⟩
  exact h

theorem bind {x : Except (Error α) β} {f : β → Except (Error α) γ} (hx : StaysInside x)
    (hf : ∀ b, x = .ok b → StaysInside (f b)) : StaysInside (x >>= f) := by
  cases x with
  | error e => exact error (hx e rfl)
  | ok b => exact hf b rfl

theorem map {x : Except (Error α) β} (hx : StaysInside x) (f : β → γ) :
    StaysInside (x.map f) := by
  cases x with
  | error e => exact error (hx e rfl)
  | ok b => exact ok (f b)

theorem mapM {f : β → Except (Error α) γ} {xs : List β} (h : ∀ x ∈ xs, StaysInside (f x)) :
    StaysInside (xs.mapM f) := by
  intro e he
  obtain ⟨x, hx, hfx⟩ := exists_error_of_mapM he
  exact h x hx e hfx

theorem foldlM {f : γ → β → Except (Error α) γ} {xs : List β}
    (h : ∀ x ∈ xs, ∀ s, StaysInside (f s x)) (s : γ) : StaysInside (xs.foldlM f s) := by
  induction xs generalizing s with
  | nil => exact ok s
  | cons x xs ih =>
      rw [List.foldlM_cons]
      refine (h x List.mem_cons_self s).bind fun t _ => ?_
      exact ih (fun y hy => h y (List.mem_cons_of_mem x hy)) t

theorem write {ws : List (Nat × Except (Error α) β)} (h : ∀ w ∈ ws, StaysInside w.2)
    (buffer : Array β) : StaysInside (Filled.write ws buffer).outcome := by
  fun_induction Filled.write ws buffer with
  | case1 => exact ok ()
  | case2 p v rest buffer ih => exact ih fun w hw => h w (List.mem_cons_of_mem _ hw)
  | case3 p e rest buffer => exact error (h _ List.mem_cons_self e rfl)

theorem result {f : Filled α β} (h : StaysInside f.outcome) : StaysInside f.result :=
  h.map _

end StaysInside

/-! ## Refusals -/

variable {α : Type}

theorem staysInside_pixelCount (r : Region) :
    StaysInside (r.pixelCount : Except (Error α) Nat) := by
  rw [Region.pixelCount_eq]
  split_ifs
  · exact .ok _
  · exact .error id

theorem staysInside_checkFill (r : Region) (size : Nat) :
    StaysInside (r.checkFill size : Except (Error α) Unit) := by
  refine (staysInside_pixelCount r).bind fun required _ => ?_
  split_ifs
  · exact .error id
  · exact .ok _

theorem staysInside_storableCount (r : Region) :
    StaysInside (r.storableCount : Except (Error α) Nat) := by
  refine (staysInside_pixelCount r).bind fun n _ => ?_
  split_ifs
  · exact .ok _
  · exact .error id

theorem staysInside_ofValues (height width : Nat) (values : Array α) :
    StaysInside (Raster.ofValues height width values) := by
  unfold Raster.ofValues
  split_ifs
  · exact .ok _
  · exact .error id

theorem staysInside_ofName (name : String) :
    StaysInside (Mode.ofName name : Except (Error α) Mode) := by
  unfold Mode.ofName
  dsimp only
  split
  · exact .ok _
  · exact .error id

variable [Scalar α]

theorem staysInside_layOut (rows columns : Nat) :
    StaysInside (layOut rows columns : Except (Error α) Unit) := by
  unfold layOut
  split_ifs
  · exact .ok _
  · exact .error id

theorem staysInside_leastSquares [Decomposition α] {m n : Nat} (d : Design α m n)
    (values : Array α) : StaysInside (leastSquares d values) := by
  unfold leastSquares
  split_ifs
  · exact .error id
  · dsimp only
    split
    · exact .error id
    · split_ifs
      · exact .error id
      · exact .ok _
  · exact .error id

namespace Grid.Consistent

variable {g : Grid α}

/-! ## Fits -/

section Fits

variable [Decomposition α]

theorem staysInside_fitRow (h : g.Consistent) {r : Nat} (hr : r < g.height) :
    StaysInside (g.fitRow r) := by
  have hvalues : StaysInside (g.rowSamples r) := by
    refine .mapM fun c hc => ?_
    rw [h.sample_eq (List.mem_range.mp hc) hr]
    exact .ok _
  exact hvalues.bind fun _ _ => (staysInside_leastSquares _ _).bind fun _ _ => .ok _

theorem staysInside_fitRows (h : g.Consistent) : StaysInside g.fitRows :=
  (staysInside_layOut _ _).bind fun _ _ => (staysInside_layOut _ _).bind fun _ _ =>
    (StaysInside.mapM fun _ hr => h.staysInside_fitRow (List.mem_range.mp hr)).bind fun _ _ =>
      .ok _

theorem staysInside_fitSurface (h : g.Consistent) : StaysInside g.fitSurface := by
  rw [h.fitSurface_eq]
  exact (staysInside_layOut _ _).bind fun _ _ => (staysInside_leastSquares _ _).map _

end Fits

/-! ## Blocks and scenes -/

theorem staysInside_fillMix (h : g.Consistent) (r : Region) (buffer : Array α) :
    StaysInside (g.fillMix r buffer).outcome := by
  unfold fillMix
  split_ifs
  · exact .ok _
  · exact .error id
  · exact .ok _
  · rw [mixWrites_eq_scan]
    refine .write (fun w hw => ?_) buffer
    rw [Region.scan_eq_map_range] at hw
    obtain ⟨p, -, rfl⟩ := List.mem_map.mp hw
    rw [h.mixAtPlace_eq]
    exact .ok _

variable [Circular α]

theorem staysInside_fillComponents (h : g.Consistent) (d : Discontinuity) (r : Region)
    (buffer : Array α) : StaysInside (g.components.fill d r buffer).outcome := by
  have hsin := h.components.1.staysInside_fillMix r (Array.replicate r.count Scalar.zero)
  have hcos := h.components.2.staysInside_fillMix r (Array.replicate r.count Scalar.zero)
  unfold Components.fill
  dsimp only
  split
  · rename_i he
    exact .error (hsin _ he)
  · rename_i he
    exact .error (hcos _ he)
  · exact .ok _

variable [Decomposition α]

theorem staysInside_interpolant (h : g.Consistent) (m : Mode) :
    StaysInside (g.sampler.interpolant m) := by
  cases m with
  | bilinear => exact .ok _
  | quadratic => exact h.staysInside_fitRows.map _
  | biquadratic => exact h.staysInside_fitSurface.map _

theorem staysInside_valueAtMode (h : g.Consistent) (x y : α) (m : Mode) :
    StaysInside (g.sampler.valueAtMode x y m) := by
  refine (h.staysInside_interpolant m).bind fun i hi => ?_
  obtain ⟨v, hv⟩ := h.exists_valueAt hi x y
  rw [hv]
  exact .ok v

theorem staysInside_fill (h : g.Consistent) (m : Mode) (r : Region) (buffer : Array α) :
    StaysInside (g.sampler.fill m r buffer).outcome := by
  cases hcheck : (r.checkFill buffer.size : Except (Error α) Unit) with
  | error e =>
      simp only [Sampler.fill, hcheck]
      exact .error (staysInside_checkFill r buffer.size e hcheck)
  | ok =>
      rw [Sampler.fill_of_checkFill hcheck]
      split_ifs
      · exact .ok _
      · refine .write (fun w hw => ?_) buffer
        rw [show pixelWrites (g.sampler.interpolant m) r = r.scan fun col row =>
          g.sampler.valueAtMode (pixelCentre (r.x + col)) (pixelCentre (r.y + row)) m from rfl,
          Region.scan_eq_map_range] at hw
        obtain ⟨p, -, rfl⟩ := List.mem_map.mp hw
        exact h.staysInside_valueAtMode _ _ m
      · exact h.staysInside_fillComponents _ r buffer
      · exact h.staysInside_fillMix r buffer

theorem staysInside_fillAs (h : g.Consistent) (f : PixelFormat) (m : Mode) (r : Region)
    (buffer : Array (Pixel α)) : StaysInside (g.sampler.fillAs f m r buffer).outcome := by
  have hfill := h.staysInside_fill m r (Array.replicate r.count Scalar.zero)
  unfold Sampler.fillAs
  split
  · rename_i e he
    exact .error (staysInside_checkFill r buffer.size e he)
  · split_ifs
    · dsimp only
      split
      · rename_i e he
        exact .error (hfill e he)
      · exact .ok _
    · exact .error id

theorem staysInside_block (h : g.Consistent) (m : Mode) (r : Region) :
    StaysInside (g.sampler.block m r) :=
  (staysInside_storableCount r).bind fun _ _ =>
    (h.staysInside_fill m r _).result.bind fun _ _ => staysInside_ofValues _ _ _

theorem staysInside_sceneInChunks (h : g.Consistent) (o : SceneOptions) :
    StaysInside (g.sampler.sceneInChunks o) := by
  refine (staysInside_storableCount _).bind fun n _ => ?_
  dsimp only
  split_ifs
  · exact staysInside_ofValues _ _ _
  · refine (StaysInside.foldlM (fun k _ values => ?_) _).bind fun _ _ =>
      staysInside_ofValues _ _ _
    exact (h.staysInside_fill _ _ _).result.bind fun _ _ => .ok _

end Grid.Consistent

end TiePoints
