import PagePreview.Markup.Document
import PagePreview.Proofs.Markup.Building
import PagePreview.Proofs.Markup.Grammar
import PagePreview.Proofs.Text.Pieces

/-!
# Reading back what is written

`Token.chars` is the text of a token as the printer writes it.  A token is
legible if that text is read back as the token: a tag with quoted values, a
comment, raw text and its end tag, a declaration.  `run_chars` is the step:
a builder that meets a legible token adds it and goes on behind it, whatever
follows.

A text is different, since where it ends depends on what comes next, and it
may be read in several pieces.  `run_inert` shows that a text in which no
markup opens is read as one text, if it is followed by markup or by nothing.
-/

namespace PagePreview.Markup

open Text

/-! ## The text of a token -/

/-- No value holds a double quote. -/
def QuoteFree (attributes : List Attribute) : Prop := ∀ a ∈ attributes, '"' ∉ a.value.toList

instance (attributes : List Attribute) : Decidable (QuoteFree attributes) :=
  inferInstanceAs (Decidable (∀ a ∈ attributes, '"' ∉ a.value.toList))

/-- A token as the printer writes it. -/
def Token.chars : Token → List Char
  | .text cs => cs
  | .comment cs => "<!--".toList ++ cs ++ "-->".toList
  | .declaration cs => cs
  | .startTag name body => startTagChars name body.attributes
  | .endTag name => endTagChars name
  | .rawText name attributes cs => startTagChars name attributes ++ cs ++ endTagChars name

/-- The text of a declaration: two brackets, and behind the first one a mark that is not the
one of a comment. -/
def IsDeclarationText (cs : List Char) : Prop :=
  ∃ mark inner, cs = '<' :: mark :: (inner ++ ['>']) ∧ (mark = '!' ∨ mark = '?') ∧
    '>' ∉ inner ∧ startsWith "--".toList inner = false

/-- A token that is read back from its text, whatever follows.  A text is none: it may go on. -/
def Token.Legible : Token → Prop
  | .text _ => False
  | .comment cs => contains commentEnd cs = false
  | .declaration cs => IsDeclarationText cs
  | .startTag name body =>
      isElementName name = true ∧ isRawText name = false ∧
        AttributesWellFormed body.attributes ∧ QuoteFree body.attributes ∧
        body.selfClosing = false
  | .endTag name => isElementName name = true
  | .rawText name attributes cs =>
      isElementName name = true ∧ isRawText name = true ∧ AttributesWellFormed attributes ∧
        QuoteFree attributes ∧ holdsEndTag name.toList cs = false

/-! ## Attributes -/

theorem replaceFrom_of_not_mem {c : Char} {put cs : List Char} (h : c ∉ cs) :
    replaceFrom [c] put 0 cs = cs := by
  induction cs with
  | nil => rfl
  | cons d cs ih =>
      simp only [List.mem_cons, not_or] at h
      have hFront : startsWith [c] (d :: cs) = false := by
        simpa [startsWith, List.isPrefixOf] using h.1
      simp [replaceFrom, hFront, ih h.2]

/-- A value without double quotes is written as it is. -/
theorem attribute_chars_of_quoteFree {a : Attribute} (h : '"' ∉ a.value.toList) :
    a.chars = ' ' :: (a.name.toList ++ '=' :: '"' :: (a.value.toList ++ ['"'])) := by
  simp [Attribute.chars, replaceAll, replaceFrom_of_not_mem h]

theorem exists_of_isAttributeName {name : String} (h : isAttributeName name = true) :
    ∃ c cs, name.toList = c :: cs ∧
      ∀ d ∈ c :: cs, isAttributeChar d = true ∧ d.isUpper = false := by
  cases hChars : name.toList with
  | nil => simp [isAttributeName, hChars] at h
  | cons c cs =>
      refine ⟨c, cs, rfl, ?_⟩
      simpa [isAttributeName, hChars] using h

theorem not_blank_of_isAttributeChar {c : Char} (h : isAttributeChar c = true) :
    isAsciiBlank c = false := by
  simp only [isAttributeChar, Bool.not_eq_true', Bool.or_eq_false_iff] at h
  exact h.1.1.1

theorem dropBlanks_cons_of_not_blank {c : Char} (h : isAsciiBlank c = false) (cs : List Char) :
    dropBlanks (c :: cs) = c :: cs := by
  simp [dropBlanks, h]

/-- The step of `tagBody?` at an attribute. -/
theorem tagBody?_of_isAttributeChar {c : Char} (h : isAttributeChar c = true)
    (seen : List Attribute) (cs : List Char) :
    tagBody? seen (' ' :: c :: cs) =
      match valueAfterName? (cs.dropWhile isAttributeChar) with
      | none => none
      | some (value, after) =>
        tagBody? (addAttribute (c :: cs.takeWhile isAttributeChar) value seen) after := by
  have hDrop : dropBlanks (' ' :: c :: cs) = c :: cs :=
    dropBlanks_cons_of_not_blank (not_blank_of_isAttributeChar h) cs
  have hClose : c ≠ '>' := by rintro rfl; exact absurd h (by decide)
  have hSlash : c ≠ '/' := by rintro rfl; exact absurd h (by decide)
  rw [tagBody?]
  split
  · next hd => exact absurd (hDrop.symm.trans hd) (by simp)
  · next r hd => exact absurd (List.cons.inj (hDrop.symm.trans hd)).1 hClose
  · next r hd => exact absurd (List.cons.inj (hDrop.symm.trans hd)).1 hSlash
  · next r _ hd => exact absurd (List.cons.inj (hDrop.symm.trans hd)).1 hSlash
  · next d r _ _ _ hd =>
      obtain ⟨rfl, rfl⟩ := List.cons.inj (hDrop.symm.trans hd)
      rw [if_pos h]
      split <;> simp_all

/-- A value in double quotes is read up to the closing one. -/
theorem valueAfterName?_quoted {value : List Char} (h : '"' ∉ value) (more : List Char) :
    valueAfterName? ('=' :: '"' :: (value ++ '"' :: more)) = some (value, more) := by
  have hAll := all_bne_of_not_mem h
  have hValue : attributeValue? ('"' :: (value ++ '"' :: more)) = some (value, more) := by
    simp [attributeValue?, takeWhile_append_stop hAll, dropWhile_append_stop hAll]
  exact hValue

/-- One written attribute is taken off the front of a tag. -/
theorem tagBody?_attribute {seen : List Attribute} {a : Attribute}
    (hName : isAttributeName a.name = true) (hValue : '"' ∉ a.value.toList)
    (hNew : ∀ b ∈ seen, b.name ≠ a.name) (more : List Char) :
    tagBody? seen (a.chars ++ more) = tagBody? (a :: seen) more := by
  obtain ⟨c, cs, hChars, hAll⟩ := exists_of_isAttributeName hName
  obtain ⟨hFirst, hOthers⟩ := List.forall_mem_cons.mp hAll
  have hLower : lowerChars (c :: cs) = a.name.toList :=
    (lowerChars_of_not_isUpper fun d hd => (hAll d hd).2).trans hChars.symm
  have hAdd : addAttribute (c :: cs) a.value.toList seen = a :: seen := by
    have hAny : seen.any (·.name == a.name) = false := by simpa using hNew
    simp [addAttribute, hLower, hAny]
  have hText : a.chars ++ more =
      ' ' :: c :: (cs ++ '=' :: '"' :: (a.value.toList ++ '"' :: more)) := by
    simp [attribute_chars_of_quoteFree hValue, hChars]
  have hStop : isAttributeChar '=' = false := by decide
  have hCs : ∀ d ∈ cs, isAttributeChar d = true := fun d hd => (hOthers d hd).1
  rw [hText, tagBody?_of_isAttributeChar hFirst.1, dropWhile_append_stop hCs hStop,
    takeWhile_append_stop hCs hStop, valueAfterName?_quoted hValue]
  simp only [hAdd]

theorem tagBody?_close (seen : List Attribute) (rest : List Char) :
    tagBody? seen ('>' :: rest) = some (⟨seen.reverse, false⟩, rest) := by
  have hDrop : dropBlanks ('>' :: rest) = '>' :: rest :=
    dropBlanks_cons_of_not_blank (by decide) rest
  rw [tagBody?]
  split <;> simp_all

/-- **Written attributes are read back**, up to the bracket that closes the tag. -/
theorem tagBody?_attributes (seen : List Attribute) {attributes : List Attribute}
    (hNamed : ∀ a ∈ attributes, isAttributeName a.name = true) (hQuotes : QuoteFree attributes)
    (hDistinct : ((seen.reverse ++ attributes).map (·.name)).Nodup) (rest : List Char) :
    tagBody? seen (attributes.flatMap Attribute.chars ++ '>' :: rest) =
      some (⟨seen.reverse ++ attributes, false⟩, rest) := by
  induction attributes generalizing seen with
  | nil =>
      rw [List.flatMap_nil, List.nil_append, List.append_nil]
      exact tagBody?_close seen rest
  | cons a attributes ih =>
      obtain ⟨hName, hNamed⟩ := List.forall_mem_cons.mp hNamed
      obtain ⟨hQuote, hQuotes⟩ := List.forall_mem_cons.mp hQuotes
      have hSplit : seen.reverse ++ a :: attributes = (a :: seen).reverse ++ attributes := by simp
      have hNew : ∀ b ∈ seen, b.name ≠ a.name := by
        rw [List.map_append, List.nodup_append] at hDistinct
        intro b hb
        exact hDistinct.2.2 b.name (List.mem_map_of_mem (by simpa using hb)) a.name (by simp)
      rw [List.flatMap_cons, List.append_assoc, tagBody?_attribute hName hQuote hNew]
      rw [hSplit] at hDistinct ⊢
      exact ih (a :: seen) hNamed hQuotes hDistinct

/-! ## Tags -/

theorem isNameChar_of_isLowerNameChar {c : Char} (h : isLowerNameChar c = true) :
    isNameChar c = true ∧ c.isUpper = false := by
  simp only [isLowerNameChar, Bool.or_eq_true, beq_iff_eq] at h
  have hName : isNameChar c = true := by
    simp only [isNameChar, Char.isAlphanum, Char.isAlpha, Bool.or_eq_true, beq_iff_eq]
    grind
  refine ⟨hName, ?_⟩
  rcases h with (((hLow | hDigit) | rfl) | rfl) | rfl
  · exact Bool.eq_false_iff.mpr (Char.not_isUpper_of_isLower hLow)
  · exact not_isUpper_of_isDigit hDigit
  all_goals decide

/-- A name in small letters, as the reader meets it. -/
theorem exists_of_isElementName {name : String} (h : isElementName name = true) :
    ∃ c cs, name.toList = c :: cs ∧ isAsciiLetter c = true ∧
      ∀ d ∈ c :: cs, isNameChar d = true ∧ d.isUpper = false := by
  unfold isElementName at h
  split at h
  · exact absurd h (by simp)
  · next c cs hChars =>
      simp only [Bool.and_eq_true, List.all_eq_true] at h
      have hFirst : isLowerNameChar c = true := by simp [isLowerNameChar, h.1]
      refine ⟨c, cs, hChars, by simp [isAsciiLetter, Char.isAlpha, h.1], ?_⟩
      exact List.forall_mem_cons.mpr ⟨isNameChar_of_isLowerNameChar hFirst, fun d hd =>
        isNameChar_of_isLowerNameChar (h.2 d hd)⟩

theorem lowerChars_of_isElementName {name : String} (h : isElementName name = true) :
    lowerChars name.toList = name.toList := by
  obtain ⟨c, cs, hChars, -, hAll⟩ := exists_of_isElementName h
  rw [hChars]
  exact lowerChars_of_not_isUpper fun d hd => (hAll d hd).2

/-- What follows a name in a written start tag ends the name. -/
theorem exists_of_attributes (attributes : List Attribute) (rest : List Char) :
    ∃ d more, attributes.flatMap Attribute.chars ++ '>' :: rest = d :: more ∧
      isNameChar d = false := by
  cases attributes with
  | nil => exact ⟨'>', rest, rfl, by decide⟩
  | cons a attributes => exact ⟨' ', _, rfl, by decide⟩

/-- The parts of a written start tag are found again. -/
theorem startTag_parts {name : String} {attributes : List Attribute}
    (hName : isElementName name = true) (hAttributes : AttributesWellFormed attributes)
    (hQuotes : QuoteFree attributes) (rest : List Char) :
    let cs := name.toList ++ (attributes.flatMap Attribute.chars ++ '>' :: rest)
    lowerChars (cs.takeWhile isNameChar) = name.toList ∧
      tagBody? [] (cs.dropWhile isNameChar) = some (⟨attributes, false⟩, rest) := by
  intro cs
  obtain ⟨c, others, hChars, -, hAll⟩ := exists_of_isElementName hName
  obtain ⟨d, more, hMore, hStop⟩ := exists_of_attributes attributes rest
  have hNameChars : ∀ x ∈ name.toList, isNameChar x = true := by
    rw [hChars]
    exact fun x hx => (hAll x hx).1
  have hTake : cs.takeWhile isNameChar = name.toList := by
    simp only [cs]
    rw [hMore, takeWhile_append_stop hNameChars hStop]
  have hDrop : cs.dropWhile isNameChar = attributes.flatMap Attribute.chars ++ '>' :: rest := by
    simp only [cs]
    rw [hMore, dropWhile_append_stop hNameChars hStop]
  refine ⟨by rw [hTake, lowerChars_of_isElementName hName], ?_⟩
  rw [hDrop]
  exact tagBody?_attributes [] hAttributes.named hQuotes hAttributes.distinct rest

theorem not_blank_of_isAsciiLetter {c : Char} (h : isAsciiLetter c = true) :
    isAsciiBlank c = false := by
  refine Bool.eq_false_iff.mpr fun hBlank => ?_
  simp only [isAsciiBlank, Bool.or_eq_true, beq_iff_eq] at hBlank
  rcases hBlank with (((rfl | rfl) | rfl) | rfl) | rfl <;> exact absurd h (by decide)

/-- A written end tag is read back; `cs` begins behind `</`. -/
theorem endTag_name {name : String} (hName : isElementName name = true) (rest : List Char) :
    endTag (name.toList ++ '>' :: rest) = (name, rest) := by
  obtain ⟨c, others, hChars, hLetter, hAll⟩ := exists_of_isElementName hName
  have hNameChars : ∀ x ∈ name.toList, isNameChar x = true := by
    rw [hChars]
    exact fun x hx => (hAll x hx).1
  have hBlanks : dropBlanks (name.toList ++ '>' :: rest) = name.toList ++ '>' :: rest := by
    rw [hChars]
    exact dropBlanks_cons_of_not_blank (not_blank_of_isAsciiLetter hLetter) _
  have hStop : isNameChar '>' = false := by decide
  simp only [endTag, hBlanks, takeWhile_append_stop hNameChars hStop,
    dropWhile_append_stop hNameChars hStop, lowerChars_of_isElementName hName]
  simp [afterBracket]

/-! ## Raw text -/

/-- A text that matches a longer front has a bracket where the front has one. -/
theorem startsWithNoCase_of_short {front cs rest : List Char} {d : Char}
    (hLength : cs.length < front.length) (h : startsWithNoCase front (cs ++ d :: rest) = true) :
    d.toLower ∈ front.drop cs.length := by
  induction front generalizing cs with
  | nil => simp at hLength
  | cons f front ih =>
      cases cs with
      | nil =>
          simp only [List.nil_append, startsWithNoCase, Bool.and_eq_true, beq_iff_eq] at h
          simp [h.1]
      | cons c cs =>
          simp only [List.cons_append, startsWithNoCase, Bool.and_eq_true] at h
          simpa using ih (by simpa using hLength) h.2

theorem startsWithNoCase_self_append {front : List Char} (h : ∀ c ∈ front, c.isUpper = false)
    (rest : List Char) : startsWithNoCase front (front ++ rest) = true := by
  induction front with
  | nil => rfl
  | cons f front ih =>
      obtain ⟨hf, hFront⟩ := List.forall_mem_cons.mp h
      simp [startsWithNoCase, Char.toLower_eq_of_not_isUpper (Bool.eq_false_iff.mp hf), ih hFront]

/-- An end tag is seen where it is written. -/
theorem startsEndTag_endTagChars {name : String} (hName : isElementName name = true)
    (rest : List Char) : startsEndTag name.toList (endTagChars name ++ rest) = true := by
  obtain ⟨c, cs, hChars, -, hAll⟩ := exists_of_isElementName hName
  have hFront : ∀ d ∈ '<' :: '/' :: name.toList, d.isUpper = false := by
    rw [hChars]
    refine List.forall_mem_cons.mpr ⟨by decide, List.forall_mem_cons.mpr ⟨by decide, ?_⟩⟩
    exact fun d hd => (hAll d hd).2
  have hText : endTagChars name ++ rest = ('<' :: '/' :: name.toList) ++ '>' :: rest := by
    simp [endTagChars]
  rw [hText, startsEndTag, startsWithNoCase_self_append hFront]
  simp

/-- No end tag begins in a raw text and ends in the end tag behind it. -/
theorem startsEndTag_append_endTagChars {name : String} (hName : isElementName name = true)
    {cs : List Char} (hNonempty : cs ≠ []) (rest : List Char) :
    startsEndTag name.toList (cs ++ (endTagChars name ++ rest)) =
      startsEndTag name.toList cs := by
  by_cases hLength : name.toList.length + 2 ≤ cs.length
  · refine startsEndTag_append hLength fun c hc => ?_
    have hBracket : c = '<' := by simpa [endTagChars] using hc.symm
    rw [hBracket]
    decide
  · -- the bracket of the written tag would have to be in the name
    have hShort : startsEndTag name.toList cs = false :=
      Bool.eq_false_iff.mpr fun h => hLength (length_le_of_startsEndTag h)
    rw [hShort]
    refine Bool.eq_false_iff.mpr fun h => ?_
    simp only [startsEndTag, Bool.and_eq_true] at h
    obtain ⟨c, others, hChars, -, hAll⟩ := exists_of_isElementName hName
    obtain ⟨d, cs, rfl⟩ := List.exists_cons_of_ne_nil hNonempty
    have hMem : '<' ∈ ('<' :: '/' :: name.toList).drop (d :: cs).length :=
      startsWithNoCase_of_short (d := '<') (by simpa using hLength) h.1
    have hInName : '<' ∈ name.toList := by
      have hTail := List.mem_of_mem_drop (show '<' ∈ ('/' :: name.toList).drop cs.length from hMem)
      simpa using hTail
    rw [hChars] at hInName
    exact absurd (hAll '<' hInName).1 (by decide)

/-- **Raw text is read up to the end tag written behind it.** -/
theorem rawText_written {name : String} (hName : isElementName name = true) {cs : List Char}
    (h : holdsEndTag name.toList cs = false) (rest : List Char) :
    rawText name.toList (cs ++ (endTagChars name ++ rest)) = (cs, endTagChars name ++ rest) := by
  induction cs with
  | nil =>
      have hEnd := startsEndTag_endTagChars hName rest
      obtain ⟨c, more, hMore⟩ : ∃ c more, endTagChars name ++ rest = c :: more := ⟨'<', _, rfl⟩
      rw [hMore] at hEnd
      simp [hMore, rawText, hEnd]
  | cons c cs ih =>
      simp only [holdsEndTag, Bool.or_eq_false_iff] at h
      have hHere : startsEndTag name.toList (c :: (cs ++ (endTagChars name ++ rest))) = false := by
        rw [← h.1]
        exact startsEndTag_append_endTagChars hName (List.cons_ne_nil c cs) rest
      simp [rawText, hHere, ih h.2]

/-! ## Comments -/

/-- **A comment is read up to its end.**  The end of a comment cannot begin in
the comment, since its bracket comes last. -/
theorem breakOn?_comment {cs : List Char} (h : contains commentEnd cs = false)
    (rest : List Char) : breakOn? commentEnd (cs ++ (commentEnd ++ rest)) = some (cs, rest) := by
  induction cs with
  | nil => rfl
  | cons c cs ih =>
      simp only [contains, Bool.or_eq_false_iff] at h
      have hHere : dropFront? commentEnd (c :: (cs ++ (commentEnd ++ rest))) = none := by
        rcases cs with _ | ⟨d, _ | ⟨e, cs⟩⟩
        · simp [commentEnd, dropFront?]
        · simp [commentEnd, dropFront?]
        · have hFront := h.1
          rw [startsWith_eq_isSome_dropFront?] at hFront
          simp [commentEnd, dropFront?] at hFront ⊢
          grind
      simp [breakOn?, hHere, ih h.2]

/-! ## The first token of a written page -/

theorem next_endTag (foreign : Bool) {c : Char} (h : isAsciiLetter c = true) (cs : List Char) :
    Token.next foreign '<' ('/' :: c :: cs) =
      (.endTag (endTag (c :: cs)).1, (endTag (c :: cs)).2) := by
  simp [Token.next, h]

theorem next_startTag (foreign : Bool) {c : Char} (h : isAsciiLetter c = true) (cs : List Char) :
    Token.next foreign '<' (c :: cs) = Token.startTag' foreign (c :: cs) := by
  have hBang : c ≠ '!' := by rintro rfl; exact absurd h (by decide)
  have hAsk : c ≠ '?' := by rintro rfl; exact absurd h (by decide)
  have hSlash : c ≠ '/' := by rintro rfl; exact absurd h (by decide)
  simp [Token.next, hBang, hAsk, hSlash, h]

theorem next_declaration (foreign : Bool) {mark : Char} (hMark : mark = '!' ∨ mark = '?')
    {inner : List Char} (hInner : '>' ∉ inner)
    (hComment : startsWith "--".toList inner = false) (rest : List Char) :
    Token.next foreign '<' (mark :: (inner ++ '>' :: rest)) =
      (.declaration ('<' :: mark :: (inner ++ ['>'])), rest) := by
  have hAll := all_bne_of_not_mem hInner
  have hSlash : mark ≠ '/' := by rintro rfl; simp at hMark
  unfold Token.next
  simp only [beq_self_eq_true, if_true]
  split
  · next r hEq =>
      -- the mark of a comment would be part of the declaration
      obtain ⟨-, hEq⟩ := List.cons.inj hEq
      rcases inner with _ | ⟨c, _ | ⟨d, inner⟩⟩ <;> simp [startsWith] at hEq hComment
      simp [hEq] at hComment
  · next d r _ hEq =>
      obtain ⟨rfl, rfl⟩ := List.cons.inj hEq
      rw [takeWhile_append_stop hAll (by simp), afterBracket,
        dropWhile_append_stop hAll (by simp)]
      simp [hSlash, hMark]
  · next hEq => simp at hEq

/-- **A legible token is read back**, whatever follows it. -/
theorem next_chars (foreign : Bool) {token : Token} (h : token.Legible) (rest : List Char) :
    ∃ cs, token.chars ++ rest = '<' :: cs ∧ Token.next foreign '<' cs = (token, rest) := by
  cases token with
  | text cs => exact h.elim
  | comment cs =>
      refine ⟨'!' :: '-' :: '-' :: (cs ++ (commentEnd ++ rest)), ?_, ?_⟩
      · simp [Token.chars, commentEnd]
      · have hComment : Token.next foreign '<' ('!' :: '-' :: '-' :: (cs ++ (commentEnd ++ rest))) =
            Token.comment' (cs ++ (commentEnd ++ rest)) := rfl
        rw [hComment, Token.comment',
          show breakOn? "-->".toList _ = some (cs, rest) from breakOn?_comment h rest]
  | declaration cs =>
      obtain ⟨mark, inner, rfl, hMark, hInner, hComment⟩ := h
      exact ⟨mark :: (inner ++ '>' :: rest), by simp [Token.chars],
        next_declaration foreign hMark hInner hComment rest⟩
  | startTag name body =>
      obtain ⟨attributes, selfClosing⟩ := body
      obtain ⟨hName, hRaw, hAttributes, hQuotes, rfl⟩ := h
      obtain ⟨c, others, hChars, hLetter, -⟩ := exists_of_isElementName hName
      obtain ⟨hLower, hBody⟩ := startTag_parts hName hAttributes hQuotes rest
      refine ⟨name.toList ++ (attributes.flatMap Attribute.chars ++ '>' :: rest),
        by simp [Token.chars, startTagChars], ?_⟩
      rw [hChars, List.cons_append, next_startTag foreign hLetter, ← List.cons_append, ← hChars,
        Token.startTag', hLower, hBody, String.ofList_toList]
      simp [hRaw]
  | endTag name =>
      obtain ⟨c, others, hChars, hLetter, -⟩ := exists_of_isElementName h
      refine ⟨'/' :: (name.toList ++ '>' :: rest), by simp [Token.chars, endTagChars], ?_⟩
      have hEnd := endTag_name h rest
      rw [hChars, List.cons_append] at hEnd ⊢
      rw [next_endTag foreign hLetter, hEnd]
  | rawText name attributes cs =>
      obtain ⟨hName, hRaw, hAttributes, hQuotes, hContent⟩ := h
      obtain ⟨c, others, hChars, hLetter, -⟩ := exists_of_isElementName hName
      obtain ⟨hLower, hBody⟩ := startTag_parts hName hAttributes hQuotes
        (cs ++ (endTagChars name ++ rest))
      refine ⟨name.toList ++ (attributes.flatMap Attribute.chars ++
        '>' :: (cs ++ (endTagChars name ++ rest))), by simp [Token.chars, startTagChars], ?_⟩
      rw [hChars, List.cons_append, next_startTag foreign hLetter, ← List.cons_append, ← hChars,
        Token.startTag', hLower, hBody, String.ofList_toList]
      simp only [hRaw, Bool.false_and, Bool.not_false, Bool.and_self, if_true]
      rw [rawText_written hName hContent]
      simp [endTagChars, endTag_name hName]

/-- **A builder adds a legible token and goes on behind it.** -/
theorem Builder.run_chars (b : Builder) {token : Token} (h : token.Legible) (rest : List Char) :
    b.run (token.chars ++ rest) = (b.add token).run rest := by
  obtain ⟨cs, hText, hNext⟩ := next_chars b.inForeign h rest
  rw [hText, run_cons, hNext]

/-! ## Texts in which no markup opens -/

/-- Whether a tag, a comment or a declaration opens at the front. -/
def opensHere : List Char → Bool
  | '<' :: '/' :: c :: _ => isAsciiLetter c
  | '<' :: c :: _ => isAsciiLetter c || c == '!' || c == '?'
  | _ => false

/-- Whether no tag, comment or declaration opens anywhere in the text. -/
def isInert : List Char → Bool
  | [] => true
  | c :: cs => !opensHere (c :: cs) && isInert cs

theorem isInert_right {xs ys : List Char} (h : isInert (xs ++ ys) = true) :
    isInert ys = true := by
  induction xs with
  | nil => exact h
  | cons x xs ih =>
      simp only [List.cons_append, isInert, Bool.and_eq_true] at h
      exact ih h.2

/-- What may follow a text: markup, or the end of the page. -/
def EndsText (rest : List Char) : Prop := rest = [] ∨ opensHere rest = true

theorem exists_of_opensHere {cs : List Char} (h : opensHere cs = true) :
    ∃ d rest, cs = '<' :: d :: rest ∧ opensMarkup d = true := by
  unfold opensHere at h
  split at h
  · next c rest => exact ⟨'/', c :: rest, rfl, by decide⟩
  · next d rest _ => exact ⟨d, rest, rfl, by grind [opensMarkup]⟩
  · simp at h

theorem opensHere_of_ne {c : Char} (h : c ≠ '<') (cs : List Char) :
    opensHere (c :: cs) = false := by
  simp [opensHere, h]

theorem opensHere_of_isAsciiLetter {c : Char} (h : isAsciiLetter c = true) (cs : List Char) :
    opensHere ('<' :: c :: cs) = true := by
  have hSlash : c ≠ '/' := by rintro rfl; exact absurd h (by decide)
  simp [opensHere, hSlash, h]

/-- Where nothing opens there is a text. -/
theorem next_of_not_opensHere (foreign : Bool) {c : Char} {cs : List Char}
    (h : opensHere (c :: cs) = false) :
    Token.next foreign c cs = (.text (c :: (plainText cs).1), (plainText cs).2) := by
  have hTaken := Token.taken_next foreign c cs
  generalize Token.next foreign c cs = taken at hTaken ⊢
  cases hTaken with
  | text _ => rfl
  | comment rest => simp [opensHere] at h
  | declaration hMark rest _ => rcases hMark with rfl | rfl <;> simp [opensHere] at h
  | @endTag rest hLetter =>
      cases rest with
      | nil => simp at hLetter
      | cons d rest => simp_all [opensHere]
  | startTag hLetter rest =>
      rw [opensHere_of_isAsciiLetter hLetter] at h
      exact absurd h (by simp)

/-- What follows a text does not open anything in it. -/
theorem opensHere_append {c : Char} {cs rest : List Char} (h : opensHere (c :: cs) = false)
    (hRest : EndsText rest) : opensHere (c :: (cs ++ rest)) = false := by
  by_cases hc : c = '<'
  · subst hc
    obtain rfl | hOpens := hRest
    · rwa [List.append_nil]
    obtain ⟨d, more, rfl, -⟩ := exists_of_opensHere hOpens
    rcases cs with _ | ⟨x, _ | ⟨y, cs⟩⟩
    · rfl
    · by_cases hx : x = '/'
      · exact hx ▸ rfl
      · simpa [opensHere, hx] using h
    · by_cases hx : x = '/'
      · subst hx
        simpa [opensHere] using h
      · simpa [opensHere, hx] using h
  · exact opensHere_of_ne hc _

theorem plainText_cons {c : Char} {cs : List Char}
    (h : ¬ ∃ d tail, c = '<' ∧ cs = d :: tail ∧ opensMarkup d = true) :
    plainText (c :: cs) = (c :: (plainText cs).1, (plainText cs).2) := by
  by_cases hc : c = '<'
  · subst hc
    cases cs with
    | nil => rfl
    | cons d tail =>
        have hd : opensMarkup d = false :=
          Bool.eq_false_iff.mpr fun hOpen => h ⟨d, tail, rfl, rfl, hOpen⟩
        simp [plainText, hd]
  · cases cs <;> simp [plainText, hc]

/-- A piece of a text in which nothing opens is read off in front of what follows the text. -/
theorem plainText_of_inert {cs rest : List Char} (h : isInert cs = true) (hRest : EndsText rest) :
    ∃ more left, cs = more ++ left ∧ plainText (cs ++ rest) = (more, left ++ rest) := by
  induction cs with
  | nil =>
      obtain rfl | hOpens := hRest
      · exact ⟨[], [], rfl, rfl⟩
      · obtain ⟨d, more, rfl, hOpen⟩ := exists_of_opensHere hOpens
        exact ⟨[], [], rfl, by simp [plainText, hOpen]⟩
  | cons c cs ih =>
      simp only [isInert, Bool.and_eq_true] at h
      obtain ⟨more, left, rfl, hPlain⟩ := ih h.2
      by_cases hStop : ∃ d tail, c = '<' ∧ more ++ left ++ rest = d :: tail ∧ opensMarkup d = true
      · obtain ⟨d, tail, rfl, hTail, hOpen⟩ := hStop
        refine ⟨[], '<' :: (more ++ left), rfl, ?_⟩
        rw [List.cons_append, hTail]
        simp [plainText, hOpen]
      · refine ⟨c :: more, left, rfl, ?_⟩
        rw [List.cons_append, plainText_cons hStop, hPlain]

/-- **A text in which nothing opens is read as one text**, in however many pieces. -/
theorem Builder.run_inert (b : Builder) {cs rest : List Char} (hNonempty : cs ≠ [])
    (h : isInert cs = true) (hRest : EndsText rest) :
    b.run (cs ++ rest) = (b.addText cs).run rest := by
  obtain ⟨c, cs, rfl⟩ := List.exists_cons_of_ne_nil hNonempty
  simp only [isInert, Bool.and_eq_true, Bool.not_eq_true'] at h
  obtain ⟨more, left, rfl, hPlain⟩ := plainText_of_inert h.2 hRest
  rw [List.cons_append, run_cons, next_of_not_opensHere _ (opensHere_append h.1 hRest), hPlain]
  change (b.addText (c :: more)).run (left ++ rest) = _
  cases left with
  | nil => rw [List.nil_append, List.append_nil]
  | cons d left =>
      rw [run_inert (b.addText (c :: more)) (List.cons_ne_nil d left) (isInert_right h.2) hRest,
        addText_addText]
      rfl
termination_by cs.length

end PagePreview.Markup
