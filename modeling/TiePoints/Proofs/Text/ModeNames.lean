import Mathlib.Tactic.Common
import TiePoints.CachedGrid
import TiePoints.Proofs.Text.Words

/-!
# Names of modes

A name is read by lower-casing what trimming leaves of it.  The names of a mode
are the spellings of its label in ASCII letters with blanks around them: of the
characters that lower-case into ASCII letters from beyond, one brings a dot along
and the other becomes a letter that no label has.

A name that is read as a mode serves as the mode would, and any other is refused
before a fit is asked for.
-/

namespace TiePoints

open Text

namespace Mode

/-- Blanks, the label in letters of ASCII of either case, and blanks. -/
def Spelled (m : Mode) (cs : List Char) : Prop :=
  ∃ word, word.map Char.toLower = m.label.toList ∧ Surrounded word cs

theorem isPlain_of_mem_label {m : Mode} {c : Char} (h : c ∈ m.label.toList) : IsPlain c := by
  have hlabel : m.label.toList.all (fun c => IsPlain c) = true := by cases m <;> decide
  exact of_decide_eq_true (List.all_eq_true.mp hlabel c h)

theorem label_injective {m n : Mode} (h : m.label.toList = n.label.toList) : m = n := by
  cases m <;> cases n <;> first | rfl | exact absurd h (by decide)

theorem isAlpha_of_map_toLower {m : Mode} {word : List Char}
    (h : word.map Char.toLower = m.label.toList) {c : Char} (hc : c ∈ word) : c.isAlpha := by
  have hmem : c.toLower ∈ m.label.toList := h ▸ List.mem_map_of_mem hc
  exact isAlpha_of_isLower_toLower (isPlain_of_mem_label hmem).1

theorem trimmed_of_map_toLower {m : Mode} {word : List Char}
    (h : word.map Char.toLower = m.label.toList) : Trimmed word :=
  ⟨fun _ hc => not_isBlank_of_isAlpha (isAlpha_of_map_toLower h (List.mem_of_mem_head? hc)),
    fun _ hc => not_isBlank_of_isAlpha (isAlpha_of_map_toLower h (List.mem_of_mem_getLast? hc))⟩

theorem spelled_iff {m : Mode} {cs : List Char} :
    m.Spelled cs ↔ (trim cs).map Char.toLower = m.label.toList := by
  constructor
  · rintro ⟨word, hword, hcs⟩
    rwa [trim_of_surrounded (trimmed_of_map_toLower hword) hcs]
  · exact fun h => ⟨trim cs, h, surrounded_trim cs⟩

theorem eq_label_iff_spelled {m : Mode} {cs lowered : List Char} (h : Lowers (trim cs) lowered) :
    lowered = m.label.toList ↔ m.Spelled cs := by
  rw [spelled_iff]
  exact h.eq_word_iff fun _ => isPlain_of_mem_label

/-- A core with a character beyond ASCII spells no mode. -/
theorem not_spelled_of_mem {core cs : List Char} (hcore : Trimmed core) (hcs : Surrounded core cs)
    {c : Char} (hc : c ∈ core) (hbeyond : 128 ≤ c.toNat) (m : Mode) : ¬ m.Spelled cs := by
  rw [spelled_iff, trim_of_surrounded hcore hcs]
  exact fun h => absurd (lt_of_isAlpha (isAlpha_of_map_toLower h hc)) (by omega)

/-! ## Reading -/

variable {α : Type} {name : String}

theorem ofName_eq_ok_iff {m : Mode} :
    (ofName name : Except (Error α) Mode) = .ok m ↔ m.Spelled name.toList := by
  rw [← eq_label_iff_spelled (lowers_flatMap_lowerAscii _)]
  unfold ofName
  generalize (trim name.toList).flatMap lowerAscii = key
  dsimp only
  cases hfind : all.find? fun m => m.label.toList = key with
  | none =>
    have hnone : m.label.toList ≠ key := by
      simpa using List.find?_eq_none.mp hfind m m.mem_all
    exact ⟨(nomatch ·), fun h => absurd h.symm hnone⟩
  | some found =>
    have hfound : found.label.toList = key := by simpa using List.find?_some hfind
    rw [Except.ok.injEq, ← hfound]
    exact ⟨fun h => h ▸ rfl, label_injective⟩

theorem eq_unsupportedMode_of_ofName {e : Error α} (h : ofName name = .error e) :
    e = .unsupportedMode name := by
  unfold ofName at h
  dsimp only at h
  split at h
  · exact nomatch h
  · exact (Except.error.inj h).symm

theorem ofName_eq_error_iff {e : Error α} :
    ofName name = .error e ↔
      e = .unsupportedMode name ∧ ∀ m : Mode, ¬ m.Spelled name.toList := by
  constructor
  · intro h
    refine ⟨eq_unsupportedMode_of_ofName h, fun m hm => ?_⟩
    rw [ofName_eq_ok_iff.mpr hm] at h
    exact nomatch h
  · rintro ⟨rfl, hnone⟩
    cases hread : (ofName name : Except (Error α) Mode) with
    | ok m => exact absurd (ofName_eq_ok_iff.mp hread) (hnone m)
    | error e => rw [eq_unsupportedMode_of_ofName hread]

theorem ofName_of_not_spelled (h : ∀ m : Mode, ¬ m.Spelled name.toList) :
    (ofName name : Except (Error α) Mode) = .error (.unsupportedMode name) :=
  ofName_eq_error_iff.mpr ⟨rfl, h⟩

variable [Scalar α] [Circular α] [Decomposition α]

theorem serve_valueAtNamed_of_spelled {m : Mode} (h : m.Spelled name.toList) (c : CachedGrid α)
    (x y : α) : c.serve (.valueAtNamed x y name) = c.serve (.valueAtMode x y m) := by
  have hread : (ofName name : Except (Error α) Mode) = .ok m := ofName_eq_ok_iff.mpr h
  have hafter : c.after (.valueAtNamed x y name) = c.after (.valueAtMode x y m) := by
    simp only [CachedGrid.after, Request.mode?, hread]
    rfl
  simp only [CachedGrid.serve, hafter, Sampler.reply, Sampler.valueAtNamed, hread]
  rfl

theorem serve_valueAtNamed_of_not_spelled (h : ∀ m : Mode, ¬ m.Spelled name.toList)
    (c : CachedGrid α) (x y : α) :
    c.serve (.valueAtNamed x y name) = (.error (.unsupportedMode name), c) := by
  have hread : (ofName name : Except (Error α) Mode) = .error (.unsupportedMode name) :=
    ofName_of_not_spelled h
  have hafter : c.after (.valueAtNamed x y name) = c := by
    simp only [CachedGrid.after, Request.mode?, hread]
    rfl
  simp only [CachedGrid.serve, hafter, Sampler.reply, Sampler.valueAtNamed, hread]
  rfl

/-- A name is read as the mode that it spells, whatever lower-casing makes of the characters beyond
ASCII, and with one of them between the blanks it spells none.  A value in a mode of that name is
the value in the mode.  A name that spells none is refused unchanged: whatever the fits would be,
the answer is the refusal, and a grid that remembers is left as it was, with no fit made. -/
theorem ofName_reads_spellings (name : String) :
    (∀ m, (ofName name : Except (Error α) Mode) = .ok m ↔ m.Spelled name.toList) ∧
      (∀ e : Error α, ofName name = .error e ↔
        e = .unsupportedMode name ∧ ∀ m : Mode, ¬ m.Spelled name.toList) ∧
      (∀ lowered, Lowers (trim name.toList) lowered → ∀ m : Mode,
        lowered = m.label.toList ↔ m.Spelled name.toList) ∧
      (∀ core, Trimmed core → Surrounded core name.toList → (∃ c ∈ core, 128 ≤ c.toNat) →
        ∀ m : Mode, ¬ m.Spelled name.toList) ∧
      (∀ m : Mode, m.Spelled name.toList → ∀ x y : α,
        (∀ s : Sampler α, s.valueAtNamed x y name = s.valueAtMode x y m) ∧
          ∀ c : CachedGrid α, c.serve (.valueAtNamed x y name) = c.serve (.valueAtMode x y m)) ∧
      ((∀ m : Mode, ¬ m.Spelled name.toList) → ∀ x y : α,
        (∀ s : Sampler α, s.valueAtNamed x y name = .error (.unsupportedMode name)) ∧
          ∀ c : CachedGrid α,
            c.serve (.valueAtNamed x y name) = (.error (.unsupportedMode name), c)) := by
  refine ⟨fun m => ofName_eq_ok_iff, fun e => ofName_eq_error_iff,
    fun lowered h m => eq_label_iff_spelled h, ?_, ?_, ?_⟩
  · rintro core hcore hname ⟨c, hc, hbeyond⟩
    exact not_spelled_of_mem hcore hname hc hbeyond
  · intro m hm x y
    refine ⟨fun s => ?_, fun c => serve_valueAtNamed_of_spelled hm c x y⟩
    rw [Sampler.valueAtNamed, ofName_eq_ok_iff.mpr hm]
    rfl
  · intro hnone x y
    refine ⟨fun s => ?_, fun c => serve_valueAtNamed_of_not_spelled hnone c x y⟩
    rw [Sampler.valueAtNamed, ofName_of_not_spelled hnone]
    rfl

example : (ofName "\u3000 BiQuadratic\t" : Except (Error Float) Mode) = .ok .biquadratic := rfl

example : (ofName "B\u0130LINEAR" : Except (Error Float) Mode) =
    .error (.unsupportedMode "B\u0130LINEAR") := rfl

end Mode

end TiePoints
