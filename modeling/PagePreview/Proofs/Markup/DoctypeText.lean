import PagePreview.Markup.Document
import PagePreview.Proofs.Markup.Written

/-!
# Document types as they are written

A document type is written as a declaration and read back from it
(`ofDeclaration?_chars`), if its parts keep clear of what ends them: the name
of blanks, the identifiers of the quote around them, and all of them of the
bracket that ends the declaration.  A system identifier alone is written
without a keyword in front of it, so that it is not read back (`reread`).
-/

namespace PagePreview.Markup

open Text

namespace Doctype

/-- No part holds the bracket that ends a declaration. -/
structure BracketFree (d : Doctype) : Prop where
  name : '>' ∉ d.name.toList
  publicId : ∀ id, d.publicId = some id → '>' ∉ id.toList
  systemId : ∀ id, d.systemId = some id → '>' ∉ id.toList

/-- Whether an identifier is not empty and holds neither its quote nor the bracket. -/
def isPrintableId (id : String) : Bool :=
  !id.toList.isEmpty && id.toList.all fun c => c != '"' && c != '>'

/-- A document type that is read back from its declaration. -/
structure Printable (d : Doctype) : Prop where
  named : d.name ≠ ""
  name : ∀ c ∈ d.name.toList, isBlank c = false ∧ c.isUpper = false ∧ c ≠ '>'
  publicId : d.publicId.all isPrintableId = true
  systemId : d.systemId.all isPrintableId = true
  paired : d.systemId.isSome = true → d.publicId.isSome = true

/-- A document type that is read back from its declaration, up to a system identifier without a
public one. -/
structure Writable (d : Doctype) : Prop where
  name : ∀ c ∈ d.name.toList, isAsciiBlank c = false ∧ c.isUpper = false ∧ c ≠ '>'
  first : ∀ c ∈ d.name.toList.head?, isBlank c = false
  /-- Without identifiers the name is what is trimmed at the end. -/
  last : d.publicId = none → d.systemId = none →
    ∀ c ∈ d.name.toList.getLast?, isBlank c = false
  named : d.name = "" → d.publicId = none ∧ d.systemId = none
  publicId : d.publicId.all isPrintableId = true
  systemId : d.systemId.all isPrintableId = true

/-- What is read back of a document type. -/
def reread (d : Doctype) : Doctype :=
  { d with systemId := d.publicId.bind fun _ => d.systemId }

/-- Whether a name is not empty and holds no blank, no capital and no bracket. -/
def isPrintableName (name : String) : Bool :=
  !name.toList.isEmpty && name.toList.all fun c => !isBlank c && !c.isUpper && c != '>'

theorem isPrintableName_eq_true_iff (name : String) : isPrintableName name = true ↔
    name ≠ "" ∧ ∀ c ∈ name.toList, isBlank c = false ∧ c.isUpper = false ∧ c ≠ '>' := by
  simp [isPrintableName, and_assoc]

instance (d : Doctype) : Decidable d.Printable :=
  decidable_of_iff (isPrintableName d.name = true ∧
      d.publicId.all isPrintableId = true ∧ d.systemId.all isPrintableId = true ∧
      (d.systemId.isSome = true → d.publicId.isSome = true))
    ⟨fun ⟨hName, hPublic, hSystem, hPaired⟩ =>
        have hParts := (isPrintableName_eq_true_iff d.name).mp hName
        ⟨hParts.1, hParts.2, hPublic, hSystem, hPaired⟩,
      fun h => ⟨(isPrintableName_eq_true_iff d.name).mpr ⟨h.named, h.name⟩, h.publicId, h.systemId,
        h.paired⟩⟩

theorem isPrintableId_eq_true_iff (id : String) :
    isPrintableId id = true ↔ id ≠ "" ∧ '"' ∉ id.toList ∧ '>' ∉ id.toList := by
  simp only [isPrintableId, Bool.and_eq_true, Bool.not_eq_true', List.all_eq_true, bne_iff_ne,
    List.isEmpty_eq_false_iff, ne_eq, String.toList_eq_nil_iff]
  refine and_congr_right fun _ => ⟨fun h => ?_, fun h c hc => ?_⟩
  · exact ⟨fun hMem => (h _ hMem).1 rfl, fun hMem => (h _ hMem).2 rfl⟩
  · exact ⟨fun hEq => h.1 (hEq ▸ hc), fun hEq => h.2 (hEq ▸ hc)⟩

/-- The system identifier as it is written. -/
def systemChars (d : Doctype) : List Char :=
  match d.systemId with
  | some id => ' ' :: '"' :: (id.toList ++ ['"'])
  | none => []

/-- The identifiers as they are written. -/
def idChars (d : Doctype) : List Char :=
  (match d.publicId with
    | some id => " PUBLIC".toList ++ ' ' :: '"' :: (id.toList ++ ['"'])
    | none => []) ++
  d.systemChars

theorem chars_eq (d : Doctype) :
    d.chars = "<!DOCTYPE".toList ++ ' ' :: (d.name.toList ++ d.idChars ++ ['>']) := by
  have hKeyword : "<!DOCTYPE ".toList = "<!DOCTYPE".toList ++ [' '] := by decide
  have hPublic : " PUBLIC \"".toList = " PUBLIC".toList ++ [' ', '"'] := by decide
  have hSystem : " \"".toList = [' ', '"'] := by decide
  obtain ⟨name, _ | publicId, _ | systemId⟩ := d
  all_goals
    unfold chars idChars systemChars
    rw [hKeyword]
    simp only [hPublic, hSystem, List.append_assoc, List.cons_append, List.nil_append]

/-- Written identifiers begin with a blank and end with a quote. -/
theorem idChars_cases (d : Doctype) :
    (d.idChars = [] ∧ d.publicId = none ∧ d.systemId = none) ∨
      ∃ cs, d.idChars = ' ' :: (cs ++ ['"']) := by
  obtain ⟨name, _ | publicId, _ | systemId⟩ := d
  · exact Or.inl ⟨rfl, rfl, rfl⟩
  · exact Or.inr ⟨'"' :: systemId.toList, by simp [idChars, systemChars]⟩
  · exact Or.inr ⟨"PUBLIC \"".toList ++ publicId.toList, by simp [idChars, systemChars]⟩
  · exact Or.inr ⟨"PUBLIC \"".toList ++ publicId.toList ++ "\" \"".toList ++ systemId.toList,
      by simp [idChars, systemChars]⟩

theorem BracketFree.idChars {d : Doctype} (h : d.BracketFree) : '>' ∉ d.idChars := by
  unfold Doctype.idChars systemChars
  rw [List.mem_append, not_or]
  constructor
  · split
    · next id hId => simpa using h.publicId id hId
    · simp
  · split
    · next id hId => simpa using h.systemId id hId
    · simp

/-- **A document type is written as one declaration.** -/
theorem BracketFree.isDeclarationText {d : Doctype} (h : d.BracketFree) :
    IsDeclarationText d.chars := by
  refine ⟨'!', "DOCTYPE ".toList ++ (d.name.toList ++ d.idChars), ?_, Or.inl rfl, ?_, ?_⟩
  · simp [chars_eq]
  · simp [h.name, h.idChars]
  · simp [startsWith, List.isPrefixOf]

/-! ## Reading a declaration -/

/-- An identifier is read up to the quote that closes it. -/
theorem quoted?_written {id : List Char} (h : '"' ∉ id) (rest : List Char) :
    quoted? (' ' :: '"' :: (id ++ '"' :: rest)) = some (id, rest) := by
  have hAll := all_bne_of_not_mem h
  have hFront : (' ' :: '"' :: (id ++ '"' :: rest)).dropWhile (fun c => c != '"' && c != '\'') =
      '"' :: (id ++ '"' :: rest) := by
    simp
  unfold quoted?
  rw [hFront]
  simp only [takeWhile_append_stop hAll (show ('"' != '"') = false by simp),
    dropWhile_append_stop hAll (show ('"' != '"') = false by simp)]

theorem identifier?_written {id : String} (h : isPrintableId id = true) (rest : List Char) :
    identifier? (' ' :: '"' :: (id.toList ++ '"' :: rest)) = some id := by
  obtain ⟨hNonempty, hQuote, -⟩ := (isPrintableId_eq_true_iff id).mp h
  unfold identifier?
  rw [quoted?_written hQuote]
  cases hChars : id.toList with
  | nil => exact absurd (String.toList_eq_nil_iff.mp hChars) hNonempty
  | cons c cs => simp [← hChars]

namespace Writable

variable {d : Doctype}

theorem bracketFree (h : d.Writable) : d.BracketFree where
  name hMem := (h.name '>' hMem).2.2 rfl
  publicId id hId := by
    have hPublic := h.publicId
    rw [hId] at hPublic
    exact ((isPrintableId_eq_true_iff id).mp hPublic).2.2
  systemId id hId := by
    have hSystem := h.systemId
    rw [hId] at hSystem
    exact ((isPrintableId_eq_true_iff id).mp hSystem).2.2

/-- The last character of a written document type is a quote, or one of its name. -/
theorem not_blank_of_mem_getLast? (h : d.Writable) :
    ∀ c ∈ (d.name.toList ++ d.idChars).getLast?, isBlank c = false := by
  intro c hc
  obtain ⟨hNil, hPublic, hSystem⟩ | ⟨cs, hIds⟩ := idChars_cases d
  · rw [hNil, List.append_nil] at hc
    exact h.last hPublic hSystem c hc
  · have hEq : d.name.toList ++ d.idChars = (d.name.toList ++ ' ' :: cs) ++ ['"'] := by
      simp [hIds]
    rw [hEq, List.getLast?_concat, Option.mem_some_iff] at hc
    exact hc ▸ by decide

/-- What stands between the keyword and the bracket, without the blank in front of it. -/
theorem trimChars_name_idChars (h : d.Writable) :
    trimChars (' ' :: (d.name.toList ++ d.idChars)) = d.name.toList ++ d.idChars := by
  rw [trimChars_cons_of_blank (by decide)]
  cases hChars : d.name.toList with
  | nil =>
      obtain ⟨hPublic, hSystem⟩ := h.named (String.toList_eq_nil_iff.mp hChars)
      have hNil : d.idChars = [] := by simp [idChars, systemChars, hPublic, hSystem]
      rw [hNil]
      rfl
  | cons c cs =>
      have hFirst : isBlank c = false := h.first c (by simp [hChars])
      have hLast := h.not_blank_of_mem_getLast?
      rw [hChars, List.cons_append] at hLast
      exact trimChars_of_ends hFirst hLast

/-- The name is cut off at the blank in front of the identifiers. -/
theorem breakWhere_name_idChars (h : d.Writable) :
    breakWhere isAsciiBlank (d.name.toList ++ d.idChars) = (d.name.toList, d.idChars) := by
  have hName : ∀ c ∈ d.name.toList, (!isAsciiBlank c) = true := by
    intro c hc
    rw [(h.name c hc).1]
    rfl
  obtain ⟨hNil, -, -⟩ | ⟨cs, hIds⟩ := idChars_cases d
  · have hTake := @List.takeWhile_append_of_pos _ _ _ [] hName
    have hDrop := @List.dropWhile_append_of_pos _ _ _ [] hName
    simp only [List.append_nil, List.takeWhile_nil, List.dropWhile_nil] at hTake hDrop
    rw [hNil, List.append_nil, breakWhere, hTake, hDrop]
  · have hStop : (!isAsciiBlank ' ') = false := by decide
    rw [hIds, breakWhere, takeWhile_append_stop hName hStop, dropWhile_append_stop hName hStop]

theorem identifier?_systemChars (h : d.Writable) : identifier? d.systemChars = d.systemId := by
  unfold systemChars
  split
  · next id hId =>
      have hSystem := h.systemId
      rw [hId] at hSystem
      rw [identifier?_written hSystem, hId]
  · next hNone => exact hNone.symm

/-- Nothing is trimmed from written identifiers but the blank in front of them. -/
theorem trimChars_idChars {c : Char} {cs : List Char} (hIds : d.idChars = ' ' :: c :: cs)
    (hFirst : isBlank c = false) : trimChars (d.idChars.drop 1) = c :: cs := by
  obtain ⟨hNil, -, -⟩ | ⟨front, hFront⟩ := idChars_cases d
  · rw [hNil] at hIds
    exact absurd hIds (by simp)
  · have hEnd : c :: cs = front ++ ['"'] := (List.cons.inj (hIds.symm.trans hFront)).2
    rw [hIds, List.drop_succ_cons, List.drop_zero]
    refine trimChars_of_ends hFirst ?_
    rw [hEnd, List.getLast?_concat]
    rintro c ⟨⟩
    decide

/-- The identifiers are read back, one after the other. -/
theorem identifiers_written (h : d.Writable) {id : String} (hPublic : d.publicId = some id) :
    trimChars (d.idChars.drop 1) = "PUBLIC".toList ++ ' ' :: '"' ::
        (id.toList ++ '"' :: d.systemChars) ∧
      identifier? (' ' :: '"' :: (id.toList ++ '"' :: d.systemChars)) = some id ∧
      secondIdentifier? (' ' :: '"' :: (id.toList ++ '"' :: d.systemChars)) = d.systemId := by
  have hId := h.publicId
  rw [hPublic] at hId
  have hIds : d.idChars = ' ' :: 'P' :: ("UBLIC".toList ++ ' ' :: '"' ::
      (id.toList ++ '"' :: d.systemChars)) := by
    simp [idChars, hPublic]
  refine ⟨trimChars_idChars hIds (by decide), identifier?_written hId _, ?_⟩
  have hRead : quoted? (' ' :: '"' :: (id.toList ++ '"' :: d.systemChars)) =
      some (id.toList, d.systemChars) := quoted?_written ((isPrintableId_eq_true_iff id).mp hId).2.1 _
  rw [secondIdentifier?, hRead]
  exact h.identifier?_systemChars

/-- The body of a written declaration is read part by part. -/
theorem ofBody_written (h : d.Writable) :
    ofBody (' ' :: (d.name.toList ++ d.idChars ++ ['>'])) = d.reread := by
  have hLower : lowerChars d.name.toList = d.name.toList :=
    lowerChars_of_not_isUpper fun c hc => (h.name c hc).2.1
  have hInner : dropEndWhile (· == '>') (' ' :: (d.name.toList ++ d.idChars ++ ['>'])) =
      ' ' :: (d.name.toList ++ d.idChars) := by
    have hEnd : ∀ c ∈ (' ' :: (d.name.toList ++ d.idChars)).getLast?, (c == '>') = false := by
      intro c hc
      refine beq_eq_false_iff_ne.mpr ?_
      rintro rfl
      have hMem := List.mem_of_getLast? hc
      simp [h.bracketFree.name, h.bracketFree.idChars] at hMem
    rw [← List.cons_append, dropEndWhile_append_singleton (by simp),
      dropEndWhile_of_getLast? hEnd]
  unfold ofBody
  rw [hInner, h.trimChars_name_idChars]
  simp only [h.breakWhere_name_idChars, hLower, String.ofList_toList]
  cases hPublic : d.publicId with
  | none =>
      have hReread : d.reread = ⟨d.name, none, none⟩ := by
        rw [reread, hPublic]
        rfl
      rw [hReread]
      cases hSystem : d.systemId with
      | none =>
          have hNil : d.idChars = [] := by simp [idChars, systemChars, hPublic, hSystem]
          rw [hNil]
          rfl
      | some id =>
          -- no keyword begins with the quote of the identifier
          have hIds : d.idChars = ' ' :: '"' :: (id.toList ++ ['"']) := by
            simp [idChars, systemChars, hPublic, hSystem]
          rw [trimChars_idChars hIds (by decide)]
          rfl
  | some id =>
      obtain ⟨hRest, hFirst, hSecond⟩ := h.identifiers_written hPublic
      rw [hRest]
      change (⟨d.name, identifier? (' ' :: '"' :: (id.toList ++ '"' :: d.systemChars)),
        secondIdentifier? (' ' :: '"' :: (id.toList ++ '"' :: d.systemChars))⟩ : Doctype) = d.reread
      rw [hFirst, hSecond, reread, hPublic]
      rfl

/-- **A written document type is read back**, but for a system identifier alone. -/
theorem ofDeclaration?_chars (h : d.Writable) : ofDeclaration? d.chars = some d.reread := by
  have hDeclaration : isDeclaration d.chars = true := by
    rw [chars_eq]
    rfl
  have hBody : d.chars.drop 9 = ' ' :: (d.name.toList ++ d.idChars ++ ['>']) := by
    rw [chars_eq]
    rfl
  rw [ofDeclaration?, hDeclaration, if_pos rfl, hBody, h.ofBody_written]

end Writable

namespace Printable

variable {d : Doctype}

theorem writable (h : d.Printable) : d.Writable where
  name c hc := by
    obtain ⟨hBlank, hRest⟩ := h.name c hc
    refine ⟨?_, hRest⟩
    cases hAscii : isAsciiBlank c with
    | false => rfl
    | true => rw [isBlank_of_isAsciiBlank hAscii] at hBlank; exact hBlank
  first c hc := (h.name c (List.mem_of_mem_head? hc)).1
  last _ _ c hc := (h.name c (List.mem_of_getLast? hc)).1
  named hEmpty := absurd hEmpty h.named
  publicId := h.publicId
  systemId := h.systemId

theorem bracketFree (h : d.Printable) : d.BracketFree := h.writable.bracketFree

theorem reread_eq (h : d.Printable) : d.reread = d := by
  obtain ⟨name, _ | publicId, _ | systemId⟩ := d
  · rfl
  · exact absurd (h.paired rfl) (by simp)
  · rfl
  · rfl

/-- **A printable document type is read back from its declaration.** -/
theorem ofDeclaration?_chars (h : d.Printable) : ofDeclaration? d.chars = some d :=
  h.writable.ofDeclaration?_chars.trans (congrArg some h.reread_eq)

end Printable

/-! ## Document types that have been read -/

/-- What is read between quotes, and what is left behind them, was there before. -/
theorem mem_of_quoted? {cs id rest : List Char} (h : quoted? cs = some (id, rest)) :
    (∀ c ∈ id, c ∈ cs) ∧ ∀ c ∈ rest, c ∈ cs := by
  unfold quoted? at h
  split at h
  · simp at h
  · next quote inner hFront =>
      split at h
      · simp at h
      · next last after hBack =>
          simp only [Option.some.injEq, Prod.mk.injEq] at h
          obtain ⟨rfl, rfl⟩ := h
          have hInner : ∀ c ∈ inner, c ∈ cs := fun c hc =>
            (List.dropWhile_sublist _).mem (hFront ▸ List.mem_cons_of_mem quote hc)
          refine ⟨fun c hc => hInner c ((List.takeWhile_sublist _).mem hc), fun c hc => ?_⟩
          exact hInner c ((List.dropWhile_sublist _).mem (hBack ▸ List.mem_cons_of_mem last hc))

theorem mem_of_identifier? {cs : List Char} {id : String} (h : identifier? cs = some id) :
    ∀ c ∈ id.toList, c ∈ cs := by
  unfold identifier? at h
  split at h
  · next first others rest hRead =>
      obtain rfl := Option.some.inj h
      rw [String.toList_ofList]
      exact (mem_of_quoted? hRead).1
  · simp at h

theorem mem_of_secondIdentifier? {cs : List Char} {id : String}
    (h : secondIdentifier? cs = some id) : ∀ c ∈ id.toList, c ∈ cs := by
  unfold secondIdentifier? at h
  obtain ⟨⟨first, after⟩, hFirst, hSecond⟩ := Option.bind_eq_some_iff.mp h
  exact fun c hc => (mem_of_quoted? hFirst).2 c (mem_of_identifier? hSecond c hc)

/-- The parts of a document type come from what stands between the brackets. -/
theorem bracketFree_ofBody {body : List Char}
    (h : '>' ∉ dropEndWhile (· == '>') body) : (ofBody body).BracketFree := by
  have hInner : '>' ∉ trimChars (dropEndWhile (· == '>') body) := mt mem_of_mem_trimChars h
  unfold ofBody
  dsimp only
  generalize trimChars (dropEndWhile (· == '>') body) = inner at hInner ⊢
  have hName : '>' ∉ (String.ofList (lowerChars (breakWhere isAsciiBlank inner).1)).toList := by
    rw [String.toList_ofList]
    intro hMem
    obtain ⟨c, hc, hLower⟩ := mem_lowerChars.mp hMem
    rw [(toLower_eq_iff_of_not_isAlpha (by decide)).mp hLower] at hc
    exact hInner ((List.takeWhile_sublist _).mem hc)
  have hIds : ∀ n, '>' ∉ (trimChars ((breakWhere isAsciiBlank inner).2.drop 1)).drop n := by
    intro n hMem
    have hRest := List.mem_of_mem_drop (mem_of_mem_trimChars (List.mem_of_mem_drop hMem))
    exact hInner ((List.dropWhile_sublist _).mem hRest)
  split
  · exact ⟨hName, fun id hId hMem => hIds 6 (mem_of_identifier? hId _ hMem),
      fun id hId hMem => hIds 6 (mem_of_secondIdentifier? hId _ hMem)⟩
  · split
    · exact ⟨hName, fun id hId => by simp at hId,
        fun id hId hMem => hIds 6 (mem_of_identifier? hId _ hMem)⟩
    · exact ⟨hName, fun id hId => by simp at hId, fun id hId => by simp at hId⟩

/-- A bracket at the end of a declaration belongs to no part. -/
theorem not_mem_dropEndWhile_drop {cs : List Char} (h : '>' ∉ cs.dropLast) (n : Nat) :
    '>' ∉ dropEndWhile (· == '>') (cs.drop n) := by
  obtain rfl | ⟨front, last, rfl⟩ := List.eq_nil_or_concat cs
  · simp [dropEndWhile]
  rw [List.concat_eq_append, List.dropLast_concat] at h
  rw [List.concat_eq_append]
  intro hMem
  by_cases hLength : n ≤ front.length
  · rw [List.drop_append_of_le_length hLength] at hMem
    by_cases hLast : last = '>'
    · rw [hLast, dropEndWhile_append_singleton (by simp)] at hMem
      exact h (List.mem_of_mem_drop (mem_of_mem_dropEndWhile hMem))
    · have hBack := mem_of_mem_dropEndWhile hMem
      rw [List.mem_append, List.mem_singleton] at hBack
      exact hBack.elim (fun hFront => h (List.mem_of_mem_drop hFront)) fun hEq => hLast hEq.symm
  · rw [List.drop_eq_nil_of_le (by simp; omega)] at hMem
    simp [dropEndWhile] at hMem

end Doctype

/-- **No part of a document type that has been read holds a closing bracket.** -/
theorem bracketFree_parse (html : String) :
    ∀ t, (Document.parse html).doctype = some t → t.BracketFree := by
  refine Builder.run_preserves (P := fun d => ∀ t, d.doctype = some t → t.BracketFree) ?_ {}
    html.toList (by simp)
  intro b c cs hb
  have hToken := wellFormed_next b.inForeign c cs
  obtain hSame | ⟨text, hDeclaration, hRead⟩ := b.doctype_add (Token.next b.inForeign c cs).1
  · rwa [hSame]
  · rw [hDeclaration] at hToken
    intro t ht
    rw [hRead, Doctype.ofDeclaration?] at ht
    split at ht
    · obtain rfl := Option.some.inj ht
      exact Doctype.bracketFree_ofBody (Doctype.not_mem_dropEndWhile_drop hToken 9)
    · simp at ht

end PagePreview.Markup
