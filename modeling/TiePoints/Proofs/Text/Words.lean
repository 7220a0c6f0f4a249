import Mathlib.Data.List.DropRight
import TiePoints.Text.Blank

/-!
# Words in texts

A text is its core with blanks before and after it, and trimming finds the core.

Lower-casing a whole text is a matter of tables: a character may become several,
and which ones may depend on those around it.  `Lowers` says no more of it than
that the letters of ASCII come from their capitals and from two characters
beside: the dotted capital I, with a dot above behind the letter, and the sign
for the kelvin.  This is enough to know which texts become a given word of ASCII
letters, if the word has no k: those that spell it in ASCII.
-/

namespace TiePoints.Text

/-! ## Blanks around a core -/

/-- The text is the core with nothing but blanks around it. -/
def Surrounded (core cs : List Char) : Prop :=
  ∃ before after, (∀ c ∈ before, isBlank c) ∧ (∀ c ∈ after, isBlank c) ∧
    cs = before ++ core ++ after

/-- No blank stands at either end. -/
def Trimmed (core : List Char) : Prop :=
  (∀ c ∈ core.head?, ¬ isBlank c) ∧ ∀ c ∈ core.getLast?, ¬ isBlank c

theorem trim_eq (cs : List Char) : trim cs = (cs.dropWhile isBlank).rdropWhile isBlank := rfl

theorem surrounded_trim (cs : List Char) : Surrounded (trim cs) cs := by
  refine ⟨cs.takeWhile isBlank, (cs.dropWhile isBlank).rtakeWhile isBlank, ?_, ?_, ?_⟩
  · exact fun c => List.mem_takeWhile_imp
  · exact fun c => List.mem_rtakeWhile_imp
  · rw [trim_eq, List.append_assoc, List.rdropWhile_append_rtakeWhile,
      List.takeWhile_append_dropWhile]

/-- Trimming gives the one core that has no blank at its ends. -/
theorem trim_of_surrounded {core cs : List Char} (hcore : Trimmed core)
    (h : Surrounded core cs) : trim cs = core := by
  obtain ⟨before, after, hbefore, hafter, rfl⟩ := h
  rw [trim_eq, List.append_assoc, List.dropWhile_append_of_pos hbefore]
  cases core with
  | nil =>
    rw [List.nil_append, List.dropWhile_eq_nil_iff.mpr hafter]
    rfl
  | cons c rest =>
    have hfirst : ¬ isBlank c := hcore.1 c rfl
    have hback : (c :: rest).rdropWhile isBlank = c :: rest := by
      rw [List.rdropWhile_eq_self_iff]
      exact fun hne => hcore.2 _ (List.getLast?_eq_some_getLast hne)
    rw [List.cons_append, List.dropWhile_cons_of_neg hfirst, ← List.cons_append, List.rdropWhile,
      List.reverse_append, List.dropWhile_append_of_pos (by simpa using hafter)]
    exact hback

/-! ## Letter case -/

theorem isUpper_iff {c : Char} : c.isUpper ↔ 65 ≤ c.toNat ∧ c.toNat ≤ 90 :=
  decide_eq_true_iff

theorem isLower_iff {c : Char} : c.isLower ↔ 97 ≤ c.toNat ∧ c.toNat ≤ 122 :=
  Bool.and_eq_true_iff.trans (and_congr decide_eq_true_iff decide_eq_true_iff)

theorem isAlpha_iff {c : Char} : c.isAlpha ↔ c.isUpper ∨ c.isLower :=
  Bool.or_eq_true_iff

theorem toLower_of_not_isUpper {c : Char} (h : ¬ c.isUpper) : c.toLower = c :=
  dif_neg fun hupper => h (decide_eq_true hupper)

theorem isAlpha_of_isLower_toLower {c : Char} (h : c.toLower.isLower) : c.isAlpha := by
  rcases Decidable.em (c.isUpper = true) with hupper | hupper
  · exact isAlpha_iff.mpr (.inl hupper)
  · exact isAlpha_iff.mpr (.inr (toLower_of_not_isUpper hupper ▸ h))

theorem lt_of_isAlpha {c : Char} (h : c.isAlpha) : c.toNat < 128 := by
  rw [isAlpha_iff, isUpper_iff, isLower_iff] at h
  omega

theorem not_isBlank_of_isAlpha {c : Char} (h : c.isAlpha) : ¬ isBlank c := by
  rw [isAlpha_iff, isUpper_iff, isLower_iff] at h
  simp only [isBlank, blankRanges, List.any_cons, List.any_nil, Bool.or_eq_true, Bool.and_eq_true,
    decide_eq_true_eq, Bool.false_eq_true, or_false]
  omega

/-- What a character may become when a text is lower-cased. -/
inductive LowersTo : Char → List Char → Prop
  | ascii {c : Char} (h : c.toNat < 128) : LowersTo c [c.toLower]
  | dottedCapitalI : LowersTo '\u0130' ['i', '\u0307']
  | kelvin : LowersTo '\u212a' ['k']
  | other {c : Char} {piece : List Char} (h : 128 ≤ c.toNat) (hdotted : c ≠ '\u0130')
      (hkelvin : c ≠ '\u212a') (hne : piece ≠ []) (hletters : ∀ d ∈ piece, ¬ d.isAlpha) :
      LowersTo c piece

/-- The second text may be the first in lower case. -/
inductive Lowers : List Char → List Char → Prop
  | nil : Lowers [] []
  | cons {c : Char} {piece cs rest : List Char} (hc : LowersTo c piece) (hcs : Lowers cs rest) :
      Lowers (c :: cs) (piece ++ rest)

theorem lowersTo_lowerAscii (c : Char) : LowersTo c (lowerAscii c) := by
  unfold lowerAscii
  split_ifs with hdotted hkelvin
  · exact hdotted ▸ .dottedCapitalI
  · exact hkelvin ▸ .kelvin
  · rcases Nat.lt_or_ge c.toNat 128 with hascii | hother
    · exact .ascii hascii
    · have hkept : c.toLower = c := toLower_of_not_isUpper (by rw [isUpper_iff]; omega)
      refine .other hother hdotted hkelvin (List.cons_ne_nil _ _) fun d hd hletter => ?_
      rw [List.mem_singleton.mp hd, hkept] at hletter
      exact absurd (lt_of_isAlpha hletter) (by omega)

theorem lowers_flatMap_lowerAscii (cs : List Char) : Lowers cs (cs.flatMap lowerAscii) := by
  induction cs with
  | nil => exact .nil
  | cons c cs ih => exact .cons (lowersTo_lowerAscii c) ih

/-- A small letter that, on its own, only letters of ASCII become. -/
def IsPlain (c : Char) : Prop := c.isLower ∧ c ≠ 'k'

instance (c : Char) : Decidable (IsPlain c) := inferInstanceAs (Decidable (_ ∧ _))

theorem IsPlain.isAlpha {c : Char} (h : IsPlain c) : c.isAlpha := isAlpha_iff.mpr (.inr h.1)

/-- A character beyond ASCII puts something into the text that is not a plain letter, and is itself
not one in ASCII's sense of letter case. -/
theorem LowersTo.eq_or_foreign {c : Char} {piece : List Char} (h : LowersTo c piece) :
    piece = [c.toLower] ∨ (∃ d ∈ piece, ¬ IsPlain d) ∧ ¬ IsPlain c.toLower := by
  cases h with
  | ascii h => exact .inl rfl
  | dottedCapitalI => exact .inr ⟨⟨'\u0307', by decide, by decide⟩, by decide⟩
  | kelvin => exact .inr ⟨⟨'k', by decide, by decide⟩, by decide⟩
  | other h hdotted hkelvin hne hletters =>
    right
    constructor
    · obtain ⟨d, hd⟩ := List.exists_mem_of_ne_nil _ hne
      exact ⟨d, hd, fun hplain => hletters d hd hplain.isAlpha⟩
    · intro hplain
      exact absurd (lt_of_isAlpha (isAlpha_of_isLower_toLower hplain.1)) (by omega)

/-- A word of plain letters is the lower case of its spellings in ASCII and of nothing else. -/
theorem Lowers.eq_word_iff {cs lowered : List Char} (h : Lowers cs lowered) {word : List Char}
    (hword : ∀ c ∈ word, IsPlain c) : lowered = word ↔ cs.map Char.toLower = word := by
  induction h generalizing word with
  | nil => exact Iff.rfl
  | @cons c piece cs rest hc hcs ih =>
    rcases hc.eq_or_foreign with rfl | ⟨⟨d, hd, hforeign⟩, hkept⟩
    · cases word with
      | nil => simp
      | cons d word =>
        have hrest := ih fun e he => hword e (List.mem_cons_of_mem _ he)
        rw [List.singleton_append, List.map_cons, List.cons.injEq, List.cons.injEq, hrest]
    · constructor
      · rintro rfl
        exact absurd (hword d (List.mem_append_left _ hd)) hforeign
      · rintro rfl
        exact absurd (hword _ List.mem_cons_self) hkept

end TiePoints.Text
