import PagePreview.Proofs.Text.AsciiCase
import PagePreview.Proofs.Url.PunycodeRoundTrip
import PagePreview.Url.Idna

/-!
# Host names keep their spelling

`toAscii` brings a name into one spelling, and a name in that spelling is left
as it is (`toAscii_toAscii`).  In a name that was accepted there is nothing
left to do: it is ASCII without capitals, so no character is mapped or joined
with another, and each of its labels is accepted again.  For the labels that
were written in ASCII this is `Punycode.decode_encode`.
-/

namespace PagePreview.Text.Composition

/-! ## Composing ASCII -/

section

variable {c : Char} (h : c.toNat < 0x80)

include h

theorem lookup_marks_eq_none : marks.lookup c.toNat = none := by
  have hAll : ∀ n < 0x80, marks.lookup n = none := by decide +kernel
  exact hAll c.toNat h

theorem place_eq_zero : place c = 0 := by
  have hAll : ∀ n < 0x80, place (Char.ofNat n) = 0 := by decide +kernel
  exact of_toNat_lt (P := fun c => place c = 0) hAll h

theorem parts?_eq_none : parts? c = none := by
  have hHangul : ¬ (decide (0xAC00 ≤ c.toNat) && decide (c.toNat ≤ 0xD7A3)) = true := by
    simp
    omega
  have hSmall : c.toNat < 0xC0 := by omega
  simp only [parts?, if_neg hHangul, if_pos hSmall]

theorem join?_eq_none (a : Char) : join? a c = none := by
  unfold join?
  simp only [lookup_marks_eq_none h]
  split_ifs with hVowel hLast
  · simp at hVowel
    omega
  · simp at hLast
    omega
  · rfl

end

variable {cs : List Char}

theorem decompose_of_ascii (h : ∀ c ∈ cs, c.toNat < 0x80) : decompose cs = cs := by
  have hApart (c : Char) (hMem : c ∈ cs) : takenApart 4 c = [c] := by
    rw [takenApart, parts?_eq_none (h c hMem)]
  have hOrder (ds : List Char) (hAscii : ∀ c ∈ ds, c.toNat < 0x80) : orderMarks [] ds = ds := by
    induction ds with
    | nil => rfl
    | cons d ds ih =>
        rw [List.forall_mem_cons] at hAscii
        simp [orderMarks, place_eq_zero hAscii.1, ih hAscii.2]
  have hFlat : cs.flatMap (takenApart 4) = cs := by
    rw [List.flatMap_def, List.map_congr_left hApart, ← List.flatMap_def, List.flatMap_singleton']
  rw [decompose, hFlat, hOrder cs h]

theorem joinAll_of_ascii (a : Char) (h : ∀ c ∈ cs, c.toNat < 0x80) :
    joinAll (some a) [] cs = a :: cs := by
  induction cs generalizing a with
  | nil => rfl
  | cons c cs ih =>
      rw [List.forall_mem_cons] at h
      simp [joinAll, join?_eq_none h.1, place_eq_zero h.1, ih c h.2]

/-- Nothing in a text of ASCII is joined. -/
theorem compose_of_ascii (h : ∀ c ∈ cs, c.toNat < 0x80) : compose cs = cs := by
  rw [compose, decompose_of_ascii h]
  cases cs with
  | nil => rfl
  | cons c cs =>
      rw [List.forall_mem_cons] at h
      rw [joinAll, if_pos (by simp [place_eq_zero h.1]), joinAll_of_ascii c h.2]

end PagePreview.Text.Composition

namespace PagePreview.Url

/-! ## Rows of results -/

section

variable {α β : Type}

/-- A row of results has one for each, and all of them are there. -/
theorem of_mapM_eq_some {f : α → Option β} {as : List α} {bs : List β}
    (h : as.mapM f = some bs) : bs.length = as.length ∧ ∀ b ∈ bs, ∃ a ∈ as, f a = some b := by
  induction as generalizing bs with
  | nil =>
      obtain rfl : bs = [] := by simpa using h.symm
      simp
  | cons a as ih =>
      cases hFirst : f a with
      | none => simp [hFirst] at h
      | some b =>
          cases hRest : as.mapM f with
          | none => simp [hFirst, hRest] at h
          | some more =>
              obtain rfl : bs = b :: more := by simpa [hFirst, hRest] using h.symm
              obtain ⟨hLength, hFrom⟩ := ih hRest
              refine ⟨by simp [hLength], List.forall_mem_cons.mpr ⟨⟨a, by simp, hFirst⟩, ?_⟩⟩
              intro c hMem
              obtain ⟨d, hOld, hResult⟩ := hFrom c hMem
              exact ⟨d, List.mem_cons_of_mem a hOld, hResult⟩

theorem mapM_eq_some_map {f : α → Option β} {g : α → β} {as : List α}
    (h : ∀ a ∈ as, f a = some (g a)) : as.mapM f = some (as.map g) := by
  induction as with
  | nil => rfl
  | cons a as ih =>
      rw [List.forall_mem_cons] at h
      simp [h.1, ih h.2]

theorem mapM_eq_some_self {f : α → Option α} {as : List α} (h : ∀ a ∈ as, f a = some a) :
    as.mapM f = some as := by
  rw [mapM_eq_some_map h, List.map_id']

end

namespace Idna

open Text

/-! ## Labels -/

section

variable {label cs : List Char}

theorem labels_ne_nil (cs : List Char) : labels cs ≠ [] := by
  cases cs with
  | nil => simp [labels]
  | cons c cs =>
      rw [labels]
      split
      · simp
      · split <;> simp

/-- A label ends at the first full stop. -/
theorem labels_append_stop (h : '.' ∉ label) (cs : List Char) :
    labels (label ++ '.' :: cs) = label :: labels cs := by
  induction label with
  | nil =>
      rw [List.nil_append, labels]
      split
      · next hNil => exact absurd hNil (labels_ne_nil cs)
      · next hLabels => simp [hLabels]
  | cons c label ih =>
      simp only [List.mem_cons, not_or] at h
      rw [List.cons_append, labels, ih h.2]
      simp [Ne.symm h.1]

theorem labels_of_not_mem (h : '.' ∉ label) : labels label = [label] := by
  induction label with
  | nil => rfl
  | cons c label ih =>
      simp only [List.mem_cons, not_or] at h
      rw [labels, ih h.2]
      simp [Ne.symm h.1]

theorem not_mem_of_mem_labels (h : label ∈ labels cs) : '.' ∉ label := by
  induction cs generalizing label with
  | nil =>
      obtain rfl : label = [] := by simpa [labels] using h
      simp
  | cons c cs ih =>
      rw [labels] at h
      split at h
      · next hNil => exact absurd hNil (labels_ne_nil cs)
      · next first others hLabels =>
          have hFirst : '.' ∉ first := ih (by simp [hLabels])
          have hOthers (l : List Char) (hMem : l ∈ others) : '.' ∉ l := ih (by simp [hLabels, hMem])
          split at h
          · simp only [List.mem_cons] at h
            obtain rfl | rfl | hMem := h
            · simp
            · exact hFirst
            · exact hOthers label hMem
          · next hChar =>
              obtain rfl | hMem := List.mem_cons.mp h
              · intro hMem
                obtain hSame | hMem := List.mem_cons.mp hMem
                · exact hChar (by simp [← hSame])
                · exact hFirst hMem
              · exact hOthers label hMem

/-- Labels that are joined can be told apart again. -/
theorem labels_joinLabels {ls : List (List Char)} (hSome : ls ≠ []) (h : ∀ l ∈ ls, '.' ∉ l) :
    labels (joinLabels ls) = ls := by
  induction ls with
  | nil => exact absurd rfl hSome
  | cons first others ih =>
      rw [List.forall_mem_cons] at h
      cases others with
      | nil => exact labels_of_not_mem h.1
      | cons second others =>
          rw [joinLabels, labels_append_stop h.1, ih (by simp) h.2]
          simp

theorem mem_joinLabels {ls : List (List Char)} {c : Char} (h : c ∈ joinLabels ls) :
    c = '.' ∨ ∃ l ∈ ls, c ∈ l := by
  induction ls with
  | nil => simp [joinLabels] at h
  | cons first others ih =>
      cases others with
      | nil => exact Or.inr ⟨first, by simp, h⟩
      | cons second others =>
          rw [joinLabels, List.mem_append, List.mem_cons] at h
          · obtain h | h | h := h
            · exact Or.inr ⟨first, by simp, h⟩
            · exact Or.inl h
            · obtain h | ⟨l, hMem, h⟩ := ih h
              · exact Or.inl h
              · exact Or.inr ⟨l, List.mem_cons_of_mem first hMem, h⟩
          · simp

/-- A label is in ASCII as it is, or what is outside ASCII is written in it. -/
theorem labelToAscii_cases {result : List Char} (h : labelToAscii label = some result) :
    result = label ∨ isAscii label = false ∧ isValidLabel label = true ∧
      result = "xn--".toList ++ Punycode.encode label := by
  unfold labelToAscii at h
  split at h
  · next row =>
      cases hDecoded : Punycode.decode row with
      | none => simp [hDecoded] at h
      | some decoded =>
          simp only [hDecoded, Option.bind_eq_bind, Option.bind_some] at h
          split_ifs at h
          exact Or.inl (Option.some.inj h).symm
  · split_ifs at h with hAscii hValid
    · exact Or.inl (Option.some.inj h).symm
    · exact Or.inr ⟨by simpa using hAscii, hValid, (Option.some.inj h).symm⟩

/-- A label in ASCII is left as it is. -/
theorem labelToAscii_labelToAscii {result : List Char} (h : labelToAscii label = some result) :
    labelToAscii result = some result := by
  obtain rfl | ⟨hAscii, hValid, rfl⟩ := labelToAscii_cases h
  · exact h
  · have hDecoded := Punycode.decode_encode label
    change (do
      let decoded ← Punycode.decode (Punycode.encode label)
      if isAscii decoded || !isValidLabel decoded then none
      else if Punycode.encode decoded != Punycode.encode label then none
      else some _) = _
    simp [hDecoded, hAscii, hValid]

theorem not_mem_of_labelToAscii {result : List Char} (h : labelToAscii label = some result)
    (hNone : '.' ∉ label) : '.' ∉ result := by
  obtain rfl | ⟨_, _, rfl⟩ := labelToAscii_cases h
  · exact hNone
  · intro hMem
    obtain hMem | hMem := List.mem_append.mp hMem
    · exact absurd hMem (by decide)
    · obtain hMem | hMem | hMem := Punycode.of_mem_encode hMem
      · exact hNone hMem
      · exact absurd hMem (by decide)
      · exact absurd hMem (by decide)

end

/-! ## Names -/

section

variable {c : Char}

theorem toNat_lt_of_allowed (h : isAllowedAscii c = true) : c.toNat < 0x80 := by
  simp only [isAllowedAscii, Bool.and_eq_true, decide_eq_true_eq] at h
  omega

theorem toLower_of_allowed (h : isAllowedAscii c = true) : c.toLower = c := by
  simp only [isAllowedAscii, Bool.and_eq_true, Bool.not_eq_true'] at h
  exact Char.toLower_eq_of_not_isUpper (by simp [h.1.2])

theorem mapName_of_allowed {cs : List Char} (h : ∀ c ∈ cs, isAllowedAscii c = true) :
    mapName cs = some cs := by
  induction cs with
  | nil => rfl
  | cons c cs ih =>
      rw [List.forall_mem_cons] at h
      have hChar : mapChar c = some [c] := by
        rw [mapChar, if_pos (toNat_lt_of_allowed h.1), toLower_of_allowed h.1]
      have hRest : mapName cs = some cs := ih h.2
      unfold mapName at hRest ⊢
      rw [List.foldr_cons, hRest, hChar]
      rfl

/-- An accepted name consists of labels that are accepted again, and of characters that a name may
have. -/
theorem of_toAscii_eq_some {name result : List Char} (h : toAscii name = some result) :
    (∀ c ∈ result, isAllowedAscii c = true) ∧
      ∃ ls, ls ≠ [] ∧ (∀ l ∈ ls, '.' ∉ l) ∧ ls.mapM labelToAscii = some ls ∧
        result = joinLabels ls := by
  cases hMapped : mapName name with
  | none => simp [toAscii, hMapped] at h
  | some mapped =>
      cases hLabels : (labels (Composition.compose mapped)).mapM labelToAscii with
      | none => simp [toAscii, hMapped, hLabels] at h
      | some ls =>
          simp only [toAscii, hMapped, hLabels, Option.bind_eq_bind, Option.bind_some] at h
          split_ifs at h with hAllowed
          obtain rfl := Option.some.inj h
          obtain ⟨hLength, hFrom⟩ := of_mapM_eq_some hLabels
          refine ⟨List.all_eq_true.mp hAllowed, ls, ?_, fun l hMem => ?_,
            mapM_eq_some_self fun l hMem => ?_, rfl⟩
          · rintro rfl
            exact labels_ne_nil _ (List.length_eq_zero_iff.mp hLength.symm)
          · obtain ⟨label, hLabel, hResult⟩ := hFrom l hMem
            exact not_mem_of_labelToAscii hResult (not_mem_of_mem_labels hLabel)
          · obtain ⟨label, _, hResult⟩ := hFrom l hMem
            exact labelToAscii_labelToAscii hResult

/-- A name is left as it is if its characters are and its labels are. -/
theorem toAscii_joinLabels {ls : List (List Char)} (hSome : ls ≠ []) (hStops : ∀ l ∈ ls, '.' ∉ l)
    (hLabels : ls.mapM labelToAscii = some ls)
    (hAllowed : ∀ c ∈ joinLabels ls, isAllowedAscii c = true) :
    toAscii (joinLabels ls) = some (joinLabels ls) := by
  have hAscii := Composition.compose_of_ascii fun c hMem => toNat_lt_of_allowed (hAllowed c hMem)
  have hAll : (joinLabels ls).all isAllowedAscii = true := List.all_eq_true.mpr hAllowed
  simp only [toAscii, mapName_of_allowed hAllowed, Option.bind_eq_bind, Option.bind_some, hAscii,
    labels_joinLabels hSome hStops, hLabels, if_pos hAll]

/-- **A name in its spelling is left as it is.** -/
theorem toAscii_toAscii {name result : List Char} (h : toAscii name = some result) :
    toAscii result = some result := by
  obtain ⟨hAllowed, ls, hSome, hStops, hLabels, rfl⟩ := of_toAscii_eq_some h
  exact toAscii_joinLabels hSome hStops hLabels hAllowed

end

end Idna

end PagePreview.Url
