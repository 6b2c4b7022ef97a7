import PagePreview.Proofs.Markup.RoundTrip

/-!
# Document types that come back

A document type that has been read is in a form in which it can be written
again: nothing separates the characters of its name, its letters are small, and
its identifiers are not empty (`writable_ofBody`).  The line on which it is
printed is the first declaration of the page, so that it comes back whatever
the page holds.

What does not come back is a system identifier without a public one, because it
is printed without the keyword that would introduce it.  Everything else is
kept (`doctype_parse_toHtml`), if double quotes in an identifier do not end it
and no blank at the end of a lone name is trimmed away.
-/

namespace PagePreview.Markup

open Text

/-! ## Blanks and letter case -/

theorem not_isAsciiBlank_of_not_isBlank {c : Char} (h : isBlank c = false) :
    isAsciiBlank c = false := by
  cases hAscii : isAsciiBlank c with
  | false => rfl
  | true => rw [isBlank_of_isAsciiBlank hAscii] at h; exact h

/-- Small letters are no blanks, and neither are the capital ones. -/
theorem isBlank_toLower (c : Char) :
    isBlank c.toLower = isBlank c ∧ isAsciiBlank c.toLower = isAsciiBlank c := by
  obtain hSame | ⟨hUpper, hLower⟩ := toLower_cases c
  · rw [hSame]
    exact ⟨rfl, rfl⟩
  · have hSmall := not_isBlank_of_isAlpha (c := c.toLower) (by simp [Char.isAlpha, hLower])
    have hCapital := not_isBlank_of_isAlpha (c := c) (by simp [Char.isAlpha, hUpper])
    rw [hSmall, hCapital, not_isAsciiBlank_of_not_isBlank hSmall,
      not_isAsciiBlank_of_not_isBlank hCapital]
    exact ⟨rfl, rfl⟩

theorem not_isBlank_of_trimChars {c : Char} {cs rest : List Char} (h : trimChars cs = c :: rest) :
    isBlank c = false := by
  obtain ⟨back, hFront⟩ : trimChars cs <+: cs.dropWhile isBlank := List.rdropWhile_prefix ..
  have hHead := List.head?_dropWhile_not isBlank cs
  rw [← hFront, h] at hHead
  exact hHead

namespace Doctype

/-! ## What has been read -/

variable {body : List Char} {id : String}

/-- The name is what stands in front of the first blank, in lower case. -/
theorem name_ofBody (body : List Char) :
    (ofBody body).name.toList =
      lowerChars ((trimChars (dropEndWhile (· == '>') body)).takeWhile (!isAsciiBlank ·)) := by
  unfold ofBody
  dsimp only
  split
  · exact String.toList_ofList
  · split
    · exact String.toList_ofList
    · exact String.toList_ofList

theorem ne_empty_of_identifier? {cs : List Char} (h : identifier? cs = some id) : id ≠ "" := by
  unfold identifier? at h
  split at h
  · next c cs rest hRead =>
      obtain rfl := Option.some.inj h
      rw [ne_eq, ← String.toList_eq_nil_iff, String.toList_ofList]
      exact List.cons_ne_nil c cs
  · cases h

theorem ne_empty_of_ofBody
    (h : (ofBody body).publicId = some id ∨ (ofBody body).systemId = some id) : id ≠ "" := by
  unfold ofBody at h
  dsimp only at h
  split at h
  · refine h.elim ne_empty_of_identifier? fun hSecond => ?_
    obtain ⟨⟨first, after⟩, -, hId⟩ := Option.bind_eq_some_iff.mp hSecond
    exact ne_empty_of_identifier? hId
  · split at h
    · exact h.elim (fun hNone => absurd hNone nofun) ne_empty_of_identifier?
    · exact h.elim (fun hNone => absurd hNone nofun) fun hNone => absurd hNone nofun

/-- The name is empty only where nothing is left to read. -/
theorem ids_of_name_ofBody (h : (ofBody body).name = "") :
    (ofBody body).publicId = none ∧ (ofBody body).systemId = none := by
  have hName := name_ofBody body
  rw [h, String.toList_empty, eq_comm, lowerChars, List.map_eq_nil_iff] at hName
  cases hInner : trimChars (dropEndWhile (· == '>') body) with
  | nil =>
      unfold ofBody
      rw [hInner]
      exact ⟨rfl, rfl⟩
  | cons c rest =>
      have hFirst := not_isAsciiBlank_of_not_isBlank (not_isBlank_of_trimChars hInner)
      rw [hInner, List.takeWhile_cons_of_pos (by rw [hFirst]; rfl)] at hName
      exact absurd hName (List.cons_ne_nil _ _)

theorem first_ofBody (body : List Char) :
    ∀ c ∈ (ofBody body).name.toList.head?, isBlank c = false := by
  intro c hc
  rw [name_ofBody] at hc
  cases hInner : trimChars (dropEndWhile (· == '>') body) with
  | nil =>
      rw [hInner] at hc
      exact absurd hc (by simp [lowerChars])
  | cons d rest =>
      have hFirst := not_isBlank_of_trimChars hInner
      rw [hInner, List.takeWhile_cons_of_pos (by rw [not_isAsciiBlank_of_not_isBlank hFirst]; rfl),
        lowerChars, List.map_cons, List.head?_cons, Option.mem_some_iff] at hc
      rw [← hc, (isBlank_toLower d).1]
      exact hFirst

/-- No identifier holds a double quote. -/
def QuoteFree (d : Doctype) : Prop :=
  ∀ id, d.publicId = some id ∨ d.systemId = some id → '"' ∉ id.toList

/-- **A document type that has been read can be written again**, unless its identifiers hold the
quote that is written around them, or blanks end its name and nothing stands behind it. -/
theorem writable_ofBody (hBracket : '>' ∉ dropEndWhile (· == '>') body)
    (hQuotes : (ofBody body).QuoteFree)
    (hLast : (ofBody body).publicId = none → (ofBody body).systemId = none →
      ∀ c ∈ (ofBody body).name.toList.getLast?, isBlank c = false) :
    (ofBody body).Writable where
  name c hc := by
    refine ⟨?_, ?_, fun hEq => (bracketFree_ofBody hBracket).name (hEq ▸ hc)⟩
    · rw [name_ofBody] at hc
      obtain ⟨d, hd, rfl⟩ := mem_lowerChars.mp hc
      rw [(isBlank_toLower d).2]
      simpa using List.all_eq_true.mp List.all_takeWhile d hd
    · rw [name_ofBody] at hc
      obtain ⟨d, -, rfl⟩ := mem_lowerChars.mp hc
      exact Char.isUpper_toLower_eq_false d
  first := first_ofBody body
  last := hLast
  named := ids_of_name_ofBody
  publicId := by
    refine (Option.all_eq_true _ _).mpr fun id hId => ?_
    exact (isPrintableId_eq_true_iff id).mpr ⟨ne_empty_of_ofBody (.inl hId), hQuotes id (.inl hId),
      (bracketFree_ofBody hBracket).publicId id hId⟩
  systemId := by
    refine (Option.all_eq_true _ _).mpr fun id hId => ?_
    exact (isPrintableId_eq_true_iff id).mpr ⟨ne_empty_of_ofBody (.inr hId), hQuotes id (.inr hId),
      (bracketFree_ofBody hBracket).systemId id hId⟩

end Doctype

/-! ## The first line of a page -/

namespace Builder

/-- What has been declared stays declared. -/
theorem doctype_add_of_some {b : Builder} {t : Doctype} (h : b.doctype = some t) (token : Token) :
    (b.add token).doctype = some t := by
  obtain hSame | ⟨cs, rfl, -⟩ := b.doctype_add token
  · rw [hSame, h]
  · change (b.declaration cs).doctype = some t
    rw [declaration, h]
    exact h

theorem doctype_run_of_some {b : Builder} {t : Doctype} (h : b.doctype = some t)
    (cs : List Char) : (b.run cs).doctype = some t :=
  run_preserves (P := fun b => b.doctype = some t)
    (fun _ _ _ hb => doctype_add_of_some hb _) b cs h

end Builder

/-- The document type of a page is read in its first line, and nothing behind it counts. -/
theorem doctype_parse_of_ofDeclaration? {t d : Doctype} (h : t.BracketFree)
    (hRead : Doctype.ofDeclaration? t.chars = some d) (root : Element) :
    (Document.parse (Document.toHtml ⟨some t, root⟩)).doctype = some d := by
  have hLegible : (Token.declaration t.chars).Legible := h.isDeclarationText
  obtain ⟨cs, hText, hNext⟩ := next_chars (Builder.inForeign {}) hLegible ('\n' :: root.chars)
  have hChars : (Document.toHtml ⟨some t, root⟩).toList = '<' :: cs := by
    rw [Document.toHtml, String.toList_ofList, ← hText]
    simp [Document.chars, Document.doctypeChars, Token.chars]
  have hParse : (Document.parse (Document.toHtml ⟨some t, root⟩)).doctype =
      (Builder.run {} ('<' :: cs)).doctype := by
    rw [← hChars]
    rfl
  rw [hParse, Builder.run_cons, hNext]
  exact Builder.doctype_run_of_some hRead _

/-- **A document type survives printing**, with its name, with its public identifier, and with a
system identifier that stands behind a public one.  It may have been read in any declaration, and
it may be printed on any page. -/
theorem doctype_parse_toHtml {declaration : List Char} {t : Doctype}
    (hBracket : '>' ∉ declaration.dropLast)
    (hRead : Doctype.ofDeclaration? declaration = some t) (hQuotes : t.QuoteFree)
    (hLast : t.publicId = none → t.systemId = none →
      ∀ c ∈ t.name.toList.getLast?, isBlank c = false) (root : Element) :
    (Document.parse (Document.toHtml ⟨some t, root⟩)).doctype =
      some { t with systemId := t.publicId.bind fun _ => t.systemId } := by
  unfold Doctype.ofDeclaration? at hRead
  split at hRead
  · obtain rfl := Option.some.inj hRead
    have hWritable := Doctype.writable_ofBody (Doctype.not_mem_dropEndWhile_drop hBracket 9)
      hQuotes hLast
    exact doctype_parse_of_ofDeclaration? hWritable.bracketFree hWritable.ofDeclaration?_chars root
  · cases hRead

/-- A system identifier is printed without its keyword, and a blank behind a lone name is no
longer kept apart from the bracket: neither is read back. -/
theorem exists_doctype_parse_toHtml_ne :
    (∃ t, Doctype.ofDeclaration? "<!DOCTYPE html SYSTEM \"about:legacy-compat\">".toList = some t ∧
      t.QuoteFree ∧
      (Document.parse (Document.toHtml ⟨some t, ⟨"html", [], []⟩⟩)).doctype ≠ some t) ∧
    ∃ t, Doctype.ofDeclaration? "<!DOCTYPE page\u00a0 x>".toList = some t ∧
      t.QuoteFree ∧
      (Document.parse (Document.toHtml ⟨some t, ⟨"html", [], []⟩⟩)).doctype ≠ some t := by
  refine ⟨⟨⟨"html", none, some "about:legacy-compat"⟩, by decide +kernel, ?_, ?_⟩,
    ⟨⟨"page\u00a0", none, none⟩, by decide +kernel, ?_, ?_⟩⟩
  · rintro id (hId | hId)
    · cases hId
    · obtain rfl := Option.some.inj hId
      decide
  · have hFree : (⟨"html", none, some "about:legacy-compat"⟩ : Doctype).BracketFree :=
      ⟨by decide, nofun, fun id hId => Option.some.inj hId ▸ by decide⟩
    rw [doctype_parse_of_ofDeclaration? (d := ⟨"html", none, none⟩) hFree (by decide +kernel)]
    decide
  · rintro id (hId | hId) <;> cases hId
  · have hFree : (⟨"page\u00a0", none, none⟩ : Doctype).BracketFree :=
      ⟨by decide, nofun, nofun⟩
    rw [doctype_parse_of_ofDeclaration? (d := ⟨"page", none, none⟩) hFree (by decide +kernel)]
    decide

/-- A public identifier between single quotes and a system identifier behind it, both kept. -/
theorem doctype_parse_toHtml_legacy :
    (Document.parse (Document.toHtml
      ⟨some ⟨"svg\u00a0", some "-//W3C", some "a'b"⟩, ⟨"html", [], []⟩⟩)).doctype =
      some ⟨"svg\u00a0", some "-//W3C", some "a'b"⟩ := by
  have hRead : Doctype.ofDeclaration? "<!doctype SVG\u00a0 public '-//W3C' \"a'b\">".toList =
      some ⟨"svg\u00a0", some "-//W3C", some "a'b"⟩ := by
    decide +kernel
  refine doctype_parse_toHtml (by decide) hRead ?_ (fun hNone => by cases hNone) _
  rintro id (hId | hId)
  all_goals
    obtain rfl := Option.some.inj hId
    decide

end PagePreview.Markup
