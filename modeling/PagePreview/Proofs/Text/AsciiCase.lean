import Mathlib
import PagePreview.Text.Blank
import PagePreview.Text.Search

/-!
# Lower case in ASCII

`Char.toLower` moves the 26 capital letters onto the small ones and leaves
every other character alone.  `toLower_cases` states this as a case split, and
the lemmas below it say what survives the move: a text without capitals, and
every character that is not a letter.  Letters and digits are the ones of
ASCII throughout.

The facts about `Char.toLower` itself are the library's.  No part of it has
them short of the whole, which is imported here for this reason.
-/

namespace PagePreview.Text

/-- What holds of the characters with the first numbers holds of a character with such a number. -/
theorem of_toNat_lt {P : Char → Prop} {bound : Nat} (h : ∀ n < bound, P (Char.ofNat n)) {c : Char}
    (hLess : c.toNat < bound) : P c :=
  Char.ofNat_toNat c ▸ h c.toNat hLess

/-- Letters and digits are those of ASCII. -/
theorem not_isAlpha_of_le {c : Char} (h : 0x80 ≤ c.toNat) : c.isAlpha = false := by
  refine Bool.eq_false_of_not_eq_true fun hAlpha => ?_
  simp only [Char.isAlpha, Char.isUpper, Char.isLower, Bool.or_eq_true, Bool.and_eq_true,
    decide_eq_true_eq, ge_iff_le, UInt32.le_iff_toNat_le, Char.reduceVal,
    UInt32.reduceToNat] at hAlpha
  change (65 ≤ c.toNat ∧ c.toNat ≤ 90) ∨ (97 ≤ c.toNat ∧ c.toNat ≤ 122) at hAlpha
  omega

theorem not_isDigit_of_le {c : Char} (h : 0x80 ≤ c.toNat) : c.isDigit = false := by
  refine Bool.eq_false_of_not_eq_true fun hDigit => ?_
  simp only [Char.isDigit, Bool.and_eq_true, decide_eq_true_eq, ge_iff_le,
    UInt32.le_iff_toNat_le, Char.reduceVal, UInt32.reduceToNat] at hDigit
  change 48 ≤ c.toNat ∧ c.toNat ≤ 57 at hDigit
  omega

theorem toNat_of_isAlphanum {c : Char} (h : c.isAlphanum = true) : c.toNat < 0x80 := by
  by_contra hLarge
  rw [Char.isAlphanum, not_isAlpha_of_le (by omega), not_isDigit_of_le (by omega)] at h
  exact absurd h (by decide)

theorem not_isBlank_of_isAlpha {c : Char} (h : c.isAlpha = true) : isBlank c = false := by
  have hAll : ∀ n < 0x80, (Char.ofNat n).isAlpha = true → isBlank (Char.ofNat n) = false := by
    decide +kernel
  have hAscii : c.toNat < 0x80 := toNat_of_isAlphanum (by rw [Char.isAlphanum, h, Bool.true_or])
  exact of_toNat_lt (P := fun c => c.isAlpha = true → isBlank c = false) hAll hAscii h

/-- A character is in lower case already, or a small letter takes its place. -/
theorem toLower_cases (c : Char) :
    c.toLower = c ∨ c.isUpper = true ∧ c.toLower.isLower = true := by
  cases h : c.isUpper with
  | false => exact Or.inl (Char.toLower_eq_of_not_isUpper (by simp [h]))
  | true =>
      refine Or.inr ⟨rfl, ?_⟩
      rw [Char.isLower_toLower_eq_isAlpha, Char.isAlpha, h, Bool.true_or]

theorem not_isUpper_of_isDigit {c : Char} (h : c.isDigit = true) : c.isUpper = false := by
  simp only [Char.isDigit, Bool.and_eq_true, decide_eq_true_eq, ge_iff_le,
    UInt32.le_iff_toNat_le] at h
  simp only [Char.isUpper, decide_eq_false_iff_not, ge_iff_le, UInt32.le_iff_toNat_le]
  simp only [Char.reduceVal, UInt32.reduceToNat] at h ⊢
  omega

/-- A character that is no small letter is the lower case of itself only. -/
theorem toLower_eq_iff_of_not_isAlpha {c d : Char} (h : d.isAlpha = false) :
    c.toLower = d ↔ c = d := by
  constructor
  · rintro rfl
    -- in lower case a letter stays a letter
    rw [Char.isAlpha_toLower_eq_isAlpha, Char.isAlpha, Bool.or_eq_false_iff] at h
    exact (Char.toLower_eq_of_not_isUpper (by simp [h.1])).symm
  · rintro rfl
    rw [Char.isAlpha, Bool.or_eq_false_iff] at h
    exact Char.toLower_eq_of_not_isUpper (by simp [h.1])

theorem lowerChars_of_not_isUpper {cs : List Char} (h : ∀ c ∈ cs, c.isUpper = false) :
    lowerChars cs = cs := by
  have hEach : ∀ c ∈ cs, c.toLower = c := fun c hc =>
    Char.toLower_eq_of_not_isUpper (by simp [h c hc])
  rw [lowerChars, List.map_congr_left hEach, List.map_id']

theorem length_lowerChars (cs : List Char) : (lowerChars cs).length = cs.length :=
  List.length_map Char.toLower

/-- What is a letter in lower case is a letter. -/
theorem isAlpha_of_lowerChars {cs : List Char} (h : ∀ c ∈ lowerChars cs, c.isAlpha = true) :
    ∀ c ∈ cs, c.isAlpha = true := fun c hc => by
  have hSmall : c.toLower ∈ lowerChars cs := List.mem_map_of_mem hc
  rw [← Char.isAlpha_toLower_eq_isAlpha]
  exact h c.toLower hSmall

/-- Every character of a text in lower case is the lower case of one. -/
theorem mem_lowerChars {c : Char} {cs : List Char} :
    c ∈ lowerChars cs ↔ ∃ d ∈ cs, d.toLower = c := by
  simp [lowerChars]

end PagePreview.Text
