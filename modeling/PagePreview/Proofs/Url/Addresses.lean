import PagePreview.Proofs.Url.Authorities
import PagePreview.Proofs.Url.Paths

/-!
# Schemes and hosts keep their places

Before an address is read, blanks are cut off at its ends and some characters
are taken out.  In a text that begins with a scheme and a host neither of them
is touched, whatever follows (`IsScheme.splitScheme_significant`), so the host
is found again (`parse_of_host`, `behindSlashes_chars`).
-/

namespace PagePreview.Url

open Text

/-! ## The characters that count -/

section

variable {cs : List Char}

/-- What is above the blanks counts. -/
theorem filter_not_isIgnored (h : ∀ c ∈ cs, 0x20 < c.toNat) : cs.filter (!isIgnored ·) = cs := by
  refine List.filter_eq_self.mpr fun c hMem => ?_
  have hAbove := h c hMem
  simp only [isIgnored, Bool.not_or, Bool.and_eq_true, Bool.not_eq_true', beq_eq_false_iff_ne]
  refine ⟨⟨?_, ?_⟩, ?_⟩ <;> rintro rfl <;> exact absurd hAbove (by decide)

/-- What counts of a text that something stands in front of. -/
def significantRest (rest : List Char) : List Char :=
  (dropEndWhile isOuterBlank rest).filter (!isIgnored ·)

theorem significant_append (hSome : cs ≠ []) (h : ∀ c ∈ cs, 0x20 < c.toNat) (rest : List Char) :
    significant (cs ++ rest) = cs ++ significantRest rest := by
  have hBlank : ∀ c ∈ cs, isOuterBlank c = false := fun c hMem => by
    simpa [isOuterBlank] using h c hMem
  have hFront : (cs ++ rest).dropWhile isOuterBlank = cs ++ rest := by
    obtain ⟨c, tail, rfl⟩ := List.exists_cons_of_ne_nil hSome
    simp [hBlank c (by simp)]
  rw [significant, hFront, dropEndWhile_append hBlank, List.filter_append, filter_not_isIgnored h,
    significantRest]

theorem significantRest_of_forall (h : ∀ c ∈ cs, 0x20 < c.toNat) : significantRest cs = cs := by
  have hBlank : ∀ c ∈ cs, isOuterBlank c = false := fun c hMem => by
    simpa [isOuterBlank] using h c hMem
  have hEnd := dropEndWhile_append hBlank []
  rw [List.append_nil] at hEnd
  rw [significantRest, hEnd]
  exact (congrArg _ (List.append_nil cs)).trans (filter_not_isIgnored h)

end

/-! ## Schemes -/

/-- A scheme as it is read: a letter and then some characters, all in lower case. -/
structure IsScheme (scheme : List Char) : Prop where
  first : scheme.head?.any Char.isAlpha = true
  chars : ∀ c ∈ scheme, isSchemeChar c = true
  lower : lowerChars scheme = scheme

theorem isSchemeChar_toLower {c : Char} (h : isSchemeChar c = true) :
    isSchemeChar c.toLower = true := by
  obtain hSame | ⟨_, hLower⟩ := toLower_cases c
  · rwa [hSame]
  · simp [isSchemeChar, Char.isAlphanum, Char.isAlpha, hLower]

theorem toNat_of_isSchemeChar {c : Char} (h : isSchemeChar c = true) : 0x20 < c.toNat := by
  have hAll : ∀ n < 0x21, isSchemeChar (Char.ofNat n) = false := by decide
  by_contra hBlank
  have hOther : isSchemeChar c = false :=
    of_toNat_lt (P := fun c => isSchemeChar c = false) hAll (by omega)
  exact Bool.noConfusion (h.symm.trans hOther)

namespace IsScheme

variable {scheme cs rest : List Char}

theorem of_splitScheme (h : splitScheme cs = some (scheme, rest)) : IsScheme scheme := by
  unfold splitScheme at h
  split at h
  · simp at h
  · next c cs =>
      split at h
      · split_ifs at h with hAlpha
        obtain ⟨rfl, rfl⟩ := Prod.mk.inj (Option.some.inj h)
        have hFirst : isSchemeChar c = true := by
          simp [isSchemeChar, Char.isAlphanum, hAlpha]
        refine ⟨?_, fun d hMem => ?_, ?_⟩
        · simp [hFirst, lowerChars, Char.isAlpha_toLower_eq_isAlpha, hAlpha]
        · obtain ⟨e, hOld, rfl⟩ := mem_lowerChars.mp hMem
          exact isSchemeChar_toLower (List.mem_takeWhile_imp hOld)
        · exact lowerChars_of_not_isUpper fun d hMem => by
            obtain ⟨e, _, rfl⟩ := mem_lowerChars.mp hMem
            exact Char.isUpper_toLower_eq_false e
      · simp at h

variable (h : IsScheme scheme)

include h

theorem exists_cons : ∃ c tail, scheme = c :: tail ∧ c.isAlpha = true := by
  cases scheme with
  | nil => exact absurd h.first (by simp)
  | cons c tail => exact ⟨c, tail, rfl, by simpa using h.first⟩

theorem splitScheme_append (rest : List Char) :
    splitScheme (scheme ++ ':' :: rest) = some (scheme, rest) := by
  obtain ⟨c, tail, rfl, hAlpha⟩ := h.exists_cons
  have hDrop := dropWhile_append_stop h.chars (d := ':') (by decide) rest
  have hTake := takeWhile_append_stop h.chars (d := ':') (by decide) rest
  rw [List.cons_append] at hDrop hTake
  simp [splitScheme, hDrop, hTake, hAlpha, h.lower]

/-- What follows a scheme is cut at its end only. -/
theorem splitScheme_significant {front : List Char} (hFront : ∀ c ∈ front, 0x20 < c.toNat)
    (rest : List Char) : splitScheme (significant (scheme ++ ':' :: (front ++ rest))) =
      some (scheme, front ++ significantRest rest) := by
  have hHead : ∀ c ∈ scheme ++ ':' :: front, 0x20 < c.toNat := by
    intro c hMem
    rw [List.mem_append, List.mem_cons] at hMem
    obtain hMem | rfl | hMem := hMem
    · exact toNat_of_isSchemeChar (h.chars c hMem)
    · decide
    · exact hFront c hMem
  have hCut := significant_append (by simp) hHead rest
  simp only [List.append_assoc, List.cons_append] at hCut
  rw [hCut, h.splitScheme_append]

end IsScheme

/-! ## Addresses with a host -/

/-- Whether a host ends in front of a text. -/
def EndsHost (rest : List Char) : Prop := ∀ c, rest.head? = some c → c = '/' ∨ c = '?' ∨ c = '#'

theorem toNat_of_mem_slashes {cs : List Char} (h : ∀ c ∈ cs, isAuthorityChar c = true) :
    ∀ c ∈ '/' :: '/' :: cs, 0x20 < c.toNat :=
  List.forall_mem_cons.mpr ⟨by decide, List.forall_mem_cons.mpr
    ⟨by decide, fun c hMem => toNat_of_isAuthorityChar (h c hMem)⟩⟩

namespace EndsHost

variable {rest : List Char} (h : EndsHost rest)

include h

theorem significantRest : EndsHost (significantRest rest) := by
  cases rest with
  | nil => simpa [Url.significantRest, dropEndWhile] using h
  | cons d rest =>
      have hMark := h d rfl
      have hBlank : isOuterBlank d = false ∧ isIgnored d = false := by
        obtain rfl | rfl | rfl := hMark <;> decide
      have hCut : dropEndWhile isOuterBlank ([d] ++ rest) = [d] ++ dropEndWhile isOuterBlank rest :=
        dropEndWhile_append (by simpa using hBlank.1) rest
      rw [List.singleton_append] at hCut
      intro c hFirst
      rw [Url.significantRest, hCut] at hFirst
      simp only [List.singleton_append, List.filter_cons, hBlank.2, Bool.not_false, if_true,
        List.head?_cons, Option.some.injEq] at hFirst
      exact hFirst ▸ hMark

theorem endsAuthority (kind : SchemeKind) :
    ∀ d, rest.head? = some d → (!Url.endsAuthority kind d) = false := by
  intro d hFirst
  obtain rfl | rfl | rfl := h d hFirst <;> cases kind <;> rfl

end EndsHost

section

variable {scheme : List Char} {a : Authority} (ha : a.IsRead scheme)

include ha

/-- A host keeps its place behind a scheme, however the address goes on. -/
theorem parse_of_host (hScheme : IsScheme scheme) (hKind : SchemeKind.of scheme ≠ .file)
    (rest : List Char) : parse (scheme ++ ':' :: '/' :: '/' :: (a.chars ++ rest)) =
      behindSlashes scheme (a.chars ++ significantRest rest) := by
  have hCut := hScheme.splitScheme_significant (toNat_of_mem_slashes ha.isAuthorityChar_of_mem) rest
  simp only [List.cons_append] at hCut
  simp only [parse, parseFrom, hCut, withScheme, Option.filter_none]
  cases hOf : SchemeKind.of scheme with
  | file => exact absurd hOf hKind
  | other => rfl
  | special =>
      -- the first character of the authority is no slash
      obtain ⟨c, cs, hChars⟩ := List.exists_cons_of_ne_nil (ha.chars_ne_nil hOf)
      have hChar := ha.isAuthorityChar_of_mem c (by simp [hChars])
      have hSlash : ¬(c = '/' ∨ c = '\\') := by
        rintro (rfl | rfl) <;> exact absurd hChar (by decide)
      rw [not_or] at hSlash
      simp [hChars, hSlash]

/-- The host is read back, and the path is what follows it. -/
theorem behindSlashes_chars {rest : List Char} (hRest : EndsHost rest) :
    behindSlashes scheme (a.chars ++ rest) =
      .ok (complete scheme (some a) (.segments (readPathBehindHost (.of scheme) rest).1)
        (readPathBehindHost (.of scheme) rest).2.2) := by
  have hChars : ∀ c ∈ a.chars, (!endsAuthority (.of scheme) c) = true := fun c hMem => by
    simp [not_endsAuthority (ha.isAuthorityChar_of_mem c hMem)]
  have hStop := hRest.endsAuthority (.of scheme)
  simp only [behindSlashes, takeWhile_append_of_head? hChars hStop,
    dropWhile_append_of_head? hChars hStop, ha.readAuthority_chars, bind, Except.bind, pure,
    Except.pure]

/-- **An address is read with the scheme and the host in front of it.** -/
theorem exists_parse_host (hScheme : IsScheme scheme) (hKind : SchemeKind.of scheme ≠ .file)
    {rest : List Char} (hRest : EndsHost rest) :
    ∃ v, parse (scheme ++ ':' :: '/' :: '/' :: (a.chars ++ rest)) = .ok v ∧
      v.scheme = scheme ∧ v.authority = some a := by
  rw [parse_of_host ha hScheme hKind, behindSlashes_chars ha hRest.significantRest]
  exact ⟨_, rfl, rfl, rfl⟩

end

end PagePreview.Url
