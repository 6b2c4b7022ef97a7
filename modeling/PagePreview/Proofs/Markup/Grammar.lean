import PagePreview.Markup.Token
import PagePreview.Proofs.Markup.Elements
import PagePreview.Proofs.Text.AsciiCase

/-!
# What an element of a page looks like

The elements that are read off a page have small-letter names, the names of
their attributes differ and hold nothing that would end them, a void element
is empty, and an element of raw text holds at most one text, in which its own
end tag does not occur.  `Element.WellFormed` collects these facts, together
with the one about comments: none of them holds `-->`.

`Token.WellFormed` is the same for tokens, and `wellFormed_next` shows that
every token is of that shape, whatever page it is taken off.  `Token.taken_next`
lists the ways in which a token is taken off; what holds of every token is
proved by its cases.
-/

namespace PagePreview.Markup

open Text

/-! ## Names -/

def isLowerNameChar (c : Char) : Bool :=
  c.isLower || c.isDigit || c == '_' || c == ':' || c == '-'

/-- A small letter, and then small letters, digits and the signs `_`, `:` and `-`. -/
def isElementName (name : String) : Bool :=
  match name.toList with
  | [] => false
  | c :: cs => c.isLower && cs.all isLowerNameChar

/-- Not empty, without capitals, and without what ends an attribute name. -/
def isAttributeName (name : String) : Bool :=
  !name.toList.isEmpty && name.toList.all fun c => isAttributeChar c && !c.isUpper

/-- The attributes of one tag. -/
structure AttributesWellFormed (attributes : List Attribute) : Prop where
  distinct : (attributes.map (·.name)).Nodup
  named : ∀ a ∈ attributes, isAttributeName a.name = true

instance (attributes : List Attribute) : Decidable (AttributesWellFormed attributes) :=
  decidable_of_iff ((attributes.map (·.name)).Nodup ∧
      ∀ a ∈ attributes, isAttributeName a.name = true)
    ⟨fun h => ⟨h.1, h.2⟩, fun h => ⟨h.distinct, h.named⟩⟩

/-! ## Contents -/

/-- Whether an end tag of that name, in lower case, stands somewhere in a text. -/
def holdsEndTag (name : List Char) : List Char → Bool
  | [] => false
  | c :: cs => startsEndTag name (c :: cs) || holdsEndTag name cs

theorem ne_of_isRawText {name other : String} (hRaw : isRawText name = true)
    (hOther : isRawText other = false) : other ≠ name := by
  rintro rfl
  rw [hRaw] at hOther
  exact absurd hOther (by simp)

/-- Nothing, or one text that is not empty and does not end its element. -/
def isRawContent (name : String) : List Node → Bool
  | [] => true
  | [.text t] => !t.toList.isEmpty && !holdsEndTag name.toList t.toList
  | _ => false

/-- A text without the end tag can be the content of the element. -/
theorem isRawContent_textChildren {name t : String}
    (h : holdsEndTag name.toList t.toList = false) : isRawContent name (textChildren t) = true := by
  unfold textChildren
  split
  · rfl
  · next hNonempty => simpa [isRawContent, h] using hNonempty

/-- The content of an element of raw text holds no element. -/
theorem elementsOf_of_isRawContent {name : String} {nodes : List Node}
    (h : isRawContent name nodes = true) : elementsOf nodes = [] := by
  unfold isRawContent at h
  split at h
  · rfl
  · rfl
  · simp at h

theorem elementsNamed_of_isRawContent {name : String} {nodes : List Node}
    (h : isRawContent name nodes = true) (other : String) : elementsNamed other nodes = [] := by
  rw [elementsNamed_eq_filter, elementsOf_of_isRawContent h, List.filter_nil]

/-- What ends a comment. -/
def commentEnd : List Char := "-->".toList

/-- Whether a node, if it is a comment, keeps clear of the end of a comment. -/
def Node.isLegalComment : Node → Bool
  | .comment t => !contains commentEnd t.toList
  | .element .. => true
  | .text _ => true

/-- What reading guarantees of an element. -/
structure Element.WellFormed (e : Element) : Prop where
  named : isElementName e.name = true
  attributes : AttributesWellFormed e.attributes
  void : isVoid e.name = true → e.children = []
  raw : isRawText e.name = true → isRawContent e.name e.children = true
  comments : ∀ n ∈ e.children, n.isLegalComment = true

instance (e : Element) : Decidable e.WellFormed :=
  decidable_of_iff (isElementName e.name = true ∧ AttributesWellFormed e.attributes ∧
      (isVoid e.name = true → e.children.isEmpty = true) ∧
      (isRawText e.name = true → isRawContent e.name e.children = true) ∧
      ∀ n ∈ e.children, n.isLegalComment = true)
    ⟨fun h => ⟨h.1, h.2.1, fun hVoid => List.isEmpty_iff.mp (h.2.2.1 hVoid), h.2.2.2.1,
        h.2.2.2.2⟩,
      fun h => ⟨h.named, h.attributes, fun hVoid => List.isEmpty_iff.mpr (h.void hVoid), h.raw,
        h.comments⟩⟩

/-- A node all of whose elements are well formed. -/
structure Node.WellFormed (n : Node) : Prop where
  comment : n.isLegalComment = true
  elements : ∀ e ∈ n.elements, e.WellFormed

theorem mem_elementsOf {e : Element} {nodes : List Node} :
    e ∈ elementsOf nodes ↔ ∃ n ∈ nodes, e ∈ n.elements := by
  induction nodes with
  | nil => simp
  | cons node rest ih => simp [ih]

theorem wellFormed_text (t : String) : (Node.text t).WellFormed :=
  ⟨rfl, by simp⟩

theorem wellFormed_textChildren (t : String) : ∀ n ∈ textChildren t, n.WellFormed := by
  intro n hn
  unfold textChildren at hn
  split at hn
  · simp at hn
  · exact List.mem_singleton.mp hn ▸ wellFormed_text t

/-- An element is well formed if it is so by itself and its children are. -/
theorem wellFormed_element {name : String} {attributes : List Attribute} {children : List Node}
    (hName : isElementName name = true) (hAttributes : AttributesWellFormed attributes)
    (hVoid : isVoid name = true → children = [])
    (hRaw : isRawText name = true → isRawContent name children = true)
    (hChildren : ∀ n ∈ children, n.WellFormed) :
    (Node.element name attributes children).WellFormed := by
  refine ⟨rfl, ?_⟩
  intro e he
  rw [elements_element, List.mem_cons] at he
  obtain rfl | he := he
  · exact ⟨hName, hAttributes, hVoid, hRaw, fun n hn => (hChildren n hn).comment⟩
  · obtain ⟨n, hn, hen⟩ := mem_elementsOf.mp he
    exact (hChildren n hn).elements e hen

theorem Node.WellFormed.element {name : String} {attributes : List Attribute}
    {children : List Node} (h : (Node.element name attributes children).WellFormed) :
    (⟨name, attributes, children⟩ : Element).WellFormed :=
  h.elements _ List.mem_cons_self

theorem Node.WellFormed.children {name : String} {attributes : List Attribute}
    {children : List Node} (h : (Node.element name attributes children).WellFormed) :
    ∀ n ∈ children, n.WellFormed := fun n hn =>
  ⟨h.element.comments n hn, fun e he =>
    h.elements e (List.mem_cons_of_mem _ (mem_elementsOf.mpr ⟨n, hn, he⟩))⟩

/-! ## Tokens -/

/-- What reading guarantees of a token, at a place in foreign content or not. -/
def Token.WellFormed (foreign : Bool) : Token → Prop
  | .text _ => True
  | .comment cs => contains commentEnd cs = false
  | .declaration cs => '>' ∉ cs.dropLast
  | .startTag name body =>
      isElementName name = true ∧ AttributesWellFormed body.attributes ∧
        (isRawText name = true → body.selfClosing = true ∧ foreign = true)
  | .endTag _ => True
  | .rawText name attributes cs =>
      isElementName name = true ∧ isRawText name = true ∧ AttributesWellFormed attributes ∧
        holdsEndTag name.toList cs = false

theorem isLowerNameChar_toLower {c : Char} (h : isNameChar c = true) :
    isLowerNameChar c.toLower = true := by
  obtain hc | ⟨-, hLow⟩ := toLower_cases c
  · have hUpper : c.isUpper = false := hc ▸ Char.isUpper_toLower_eq_false c
    rw [hc]
    simp only [isNameChar, Char.isAlphanum, Char.isAlpha, hUpper, Bool.false_or] at h
    simp only [isLowerNameChar]
    grind
  · simp [isLowerNameChar, hLow]

/-- A name that is read from a letter on is an element name. -/
theorem isElementName_lowerChars {c : Char} (h : isAsciiLetter c = true) (cs : List Char) :
    isElementName (String.ofList (lowerChars ((c :: cs).takeWhile isNameChar))) = true := by
  have hName : isNameChar c = true := by
    simp only [isAsciiLetter] at h
    simp [isNameChar, Char.isAlphanum, h]
  have hLower : c.toLower.isLower = true := (Char.isLower_toLower_eq_isAlpha c).trans h
  have hRest : ∀ d ∈ cs.takeWhile isNameChar, isLowerNameChar d.toLower = true := fun d hd =>
    isLowerNameChar_toLower (List.all_eq_true.mp List.all_takeWhile d hd)
  simpa [isElementName, lowerChars, List.takeWhile_cons, hName, hLower] using hRest

/-- A character that ends no attribute name still ends none in lower case. -/
theorem isAttributeChar_toLower (c : Char) : isAttributeChar c.toLower = isAttributeChar c := by
  obtain hc | ⟨hUp, hLow⟩ := toLower_cases c
  · rw [hc]
  · have hLetter : ∀ d : Char, d.isAlpha = true → isAttributeChar d = true := by
      intro d hd
      simp only [isAttributeChar, isAsciiBlank, Bool.not_eq_true', Bool.or_eq_false_iff,
        beq_eq_false_iff_ne, ne_eq]
      refine ⟨⟨⟨⟨⟨⟨⟨?_, ?_⟩, ?_⟩, ?_⟩, ?_⟩, ?_⟩, ?_⟩, ?_⟩ <;>
        (rintro rfl; exact absurd hd (by decide))
    rw [hLetter _ (by simp [Char.isAlpha, hLow]), hLetter _ (by simp [Char.isAlpha, hUp])]

theorem AttributesWellFormed.nil : AttributesWellFormed [] := ⟨by simp, by simp⟩

theorem AttributesWellFormed.addAttribute {seen : List Attribute} (h : AttributesWellFormed seen)
    {c : Char} {cs : List Char} (hChar : isAttributeChar c = true)
    (hChars : ∀ d ∈ cs, isAttributeChar d = true) (value : List Char) :
    AttributesWellFormed (addAttribute (c :: cs) value seen) := by
  unfold Markup.addAttribute
  dsimp only
  split
  · exact h
  · next hNew =>
      have hNew : ∀ a ∈ seen, a.name ≠ String.ofList (lowerChars (c :: cs)) := by
        simpa using hNew
      refine ⟨List.nodup_cons.mpr ⟨?_, h.distinct⟩, ?_⟩
      · intro hMem
        obtain ⟨a, ha, hName⟩ := List.mem_map.mp hMem
        exact hNew a ha hName
      · intro a ha
        obtain rfl | ha := List.mem_cons.mp ha
        · have hAll : ∀ d ∈ c :: cs, isAttributeChar d = true := by simpa [hChar] using hChars
          simpa [isAttributeName, lowerChars, isAttributeChar_toLower] using hAll
        · exact h.named a ha

/-- Names stay as they are when a value is set, and a new one comes last. -/
theorem map_name_setAttribute (name value : String) (attributes : List Attribute) :
    (setAttribute name value attributes).map (·.name) =
      if name ∈ attributes.map (·.name) then attributes.map (·.name)
      else attributes.map (·.name) ++ [name] := by
  induction attributes with
  | nil => rfl
  | cons a rest ih =>
      simp only [setAttribute]
      split
      · next h => simp [beq_iff_eq.mp h]
      · next h =>
          have hName : name ≠ a.name := fun hEq => h (beq_iff_eq.mpr hEq.symm)
          simp only [List.map_cons, ih, List.mem_cons, hName, false_or]
          split <;> rfl

theorem AttributesWellFormed.setAttribute {attributes : List Attribute}
    (h : AttributesWellFormed attributes) {name : String} (hName : isAttributeName name = true)
    (value : String) : AttributesWellFormed (Markup.setAttribute name value attributes) := by
  have hNames : ∀ n ∈ (Markup.setAttribute name value attributes).map (·.name),
      isAttributeName n = true := by
    have hOld : ∀ n ∈ attributes.map (·.name), isAttributeName n = true :=
      List.forall_mem_map.mpr h.named
    rw [map_name_setAttribute]
    split
    · exact hOld
    · exact List.forall_mem_append.mpr ⟨hOld, List.forall_mem_singleton.mpr hName⟩
  refine ⟨?_, List.forall_mem_map.mp hNames⟩
  rw [map_name_setAttribute]
  split
  · exact h.distinct
  · next hNew =>
      refine List.nodup_append.mpr ⟨h.distinct, by simp, ?_⟩
      intro n hn m hm hEq
      rw [List.mem_singleton.mp hm] at hEq
      exact hNew (hEq ▸ hn)

theorem AttributesWellFormed.reverse {attributes : List Attribute}
    (h : AttributesWellFormed attributes) : AttributesWellFormed attributes.reverse := by
  refine ⟨?_, fun a ha => h.named a (List.mem_reverse.mp ha)⟩
  rw [List.map_reverse, List.nodup_iff_pairwise_ne, List.pairwise_reverse]
  exact h.distinct.imp fun hab => hab.symm

theorem wellFormed_tagBody? {seen : List Attribute} {cs rest : List Char} {body : TagBody}
    (hSeen : AttributesWellFormed seen) (h : tagBody? seen cs = some (body, rest)) :
    AttributesWellFormed body.attributes := by
  fun_induction tagBody? seen cs generalizing rest body with
  | case1 => simp at h
  | case2 seen cs r hr =>
      simp only [Option.some.injEq, Prod.mk.injEq] at h
      exact h.1 ▸ hSeen.reverse
  | case3 seen cs r hr =>
      simp only [Option.some.injEq, Prod.mk.injEq] at h
      exact h.1 ▸ hSeen.reverse
  | case4 seen cs r _ hr ih => exact ih hSeen h
  | case5 => simp at h
  | case6 seen cs c r _ _ _ hr hChar value after hv ih =>
      exact ih (hSeen.addAttribute hChar
        (fun d hd => List.all_eq_true.mp List.all_takeWhile d hd) value) h
  | case7 seen cs c r _ _ _ hr _ ih => exact ih hSeen h

/-! ## Raw texts and comments -/

theorem length_le_of_startsWithNoCase {front cs : List Char}
    (h : startsWithNoCase front cs = true) : front.length ≤ cs.length := by
  induction front generalizing cs with
  | nil => simp
  | cons f front ih =>
      cases cs with
      | nil => simp [startsWithNoCase] at h
      | cons c cs =>
          simp only [startsWithNoCase, Bool.and_eq_true] at h
          simpa using ih h.2

/-- What lies behind a text that is long enough does not matter. -/
theorem startsWithNoCase_append {front cs : List Char} (hLength : front.length ≤ cs.length)
    (rest : List Char) : startsWithNoCase front (cs ++ rest) = startsWithNoCase front cs := by
  induction front generalizing cs with
  | nil => rfl
  | cons f front ih =>
      cases cs with
      | nil => simp at hLength
      | cons c cs => simp [startsWithNoCase, ih (by simpa using hLength)]

/-- Nor does it matter to an end tag, unless its name goes on there. -/
theorem startsEndTag_append {name cs rest : List Char} (hLength : name.length + 2 ≤ cs.length)
    (hRest : ∀ c ∈ rest.head?, c.isAlphanum = false) :
    startsEndTag name (cs ++ rest) = startsEndTag name cs := by
  simp only [startsEndTag]
  have hFront : ('<' :: '/' :: name).length ≤ cs.length := hLength
  rw [startsWithNoCase_append hFront, List.drop_append_of_le_length hLength]
  congr 1
  cases cs.drop (name.length + 2) with
  | nil =>
      cases rest with
      | nil => rfl
      | cons c rest => simpa using hRest c (by simp)
  | cons c cs => rfl

theorem length_le_of_startsEndTag {name cs : List Char} (h : startsEndTag name cs = true) :
    name.length + 2 ≤ cs.length := by
  simp only [startsEndTag, Bool.and_eq_true] at h
  exact length_le_of_startsWithNoCase h.1

/-- What follows a raw text is its end tag, or nothing. -/
theorem rawText_rest (name cs : List Char) :
    (rawText name cs).2 = [] ∨ startsEndTag name (rawText name cs).2 = true := by
  induction cs with
  | nil => exact Or.inl rfl
  | cons c cs ih =>
      simp only [rawText]
      split
      · next h => exact Or.inr h
      · exact ih

/-- A text that matches a bracket begins with one. -/
theorem eq_bracket_of_startsWithNoCase {front cs : List Char} {c : Char}
    (h : startsWithNoCase ('<' :: front) (c :: cs) = true) : c = '<' := by
  simp only [startsWithNoCase, Bool.and_eq_true, beq_iff_eq] at h
  exact (toLower_eq_iff_of_not_isAlpha (by decide)).mp h.1.symm

theorem head?_of_startsEndTag {name cs : List Char} (h : startsEndTag name cs = true) :
    cs.head? = some '<' := by
  cases cs with
  | nil => simp [startsEndTag, startsWithNoCase] at h
  | cons c cs =>
      simp only [startsEndTag, Bool.and_eq_true] at h
      simp [eq_bracket_of_startsWithNoCase h.1]

/-- A text in which no end tag begins holds none. -/
theorem holdsEndTag_of_forall {name cs : List Char}
    (h : ∀ i, startsWithNoCase ('<' :: '/' :: name) (cs.drop i) = false) :
    holdsEndTag name cs = false := by
  induction cs with
  | nil => rfl
  | cons c cs ih =>
      have hHere : startsEndTag name (c :: cs) = false := by
        have hFirst : startsWithNoCase ('<' :: '/' :: name) (c :: cs) = false := h 0
        rw [startsEndTag, hFirst, Bool.false_and]
      rw [holdsEndTag, hHere, ih fun i => h (i + 1)]
      rfl

/-- Without a bracket there is no end tag. -/
theorem holdsEndTag_of_not_mem {name cs : List Char} (h : '<' ∉ cs) :
    holdsEndTag name cs = false := by
  induction cs with
  | nil => rfl
  | cons c cs ih =>
      simp only [List.mem_cons, not_or] at h
      have hHere : startsEndTag name (c :: cs) = false := by
        refine Bool.eq_false_iff.mpr fun hEnd => h.1 ?_
        simpa using (head?_of_startsEndTag hEnd).symm
      simp [holdsEndTag, hHere, ih h.2]

/-- A raw text ends before the first end tag of its element. -/
theorem holdsEndTag_rawText (name cs : List Char) :
    holdsEndTag name (rawText name cs).1 = false := by
  induction cs with
  | nil => rfl
  | cons c cs ih =>
      simp only [rawText]
      split
      · rfl
      · next hHere =>
          simp only [holdsEndTag, ih, Bool.or_false]
          -- an end tag at the front of the content would end the text already there
          refine Bool.eq_false_iff.mpr fun hFront => hHere ?_
          have hRest : ∀ d ∈ (rawText name cs).2.head?, d.isAlphanum = false := by
            intro d hd
            obtain hNil | hEnd := rawText_rest name cs
            · simp [hNil] at hd
            · rw [head?_of_startsEndTag hEnd, Option.mem_some_iff] at hd
              exact hd ▸ by decide
          have hWhole := startsEndTag_append (length_le_of_startsEndTag hFront) hRest
          rwa [hFront, List.cons_append, rawText_append] at hWhole

theorem startsWith_append {front cs : List Char} (h : startsWith front cs = true)
    (rest : List Char) : startsWith front (cs ++ rest) = true := by
  simp only [startsWith, List.isPrefixOf_iff_prefix] at h ⊢
  exact h.trans (List.prefix_append cs rest)

/-- The part before the first occurrence of a mark does not hold the mark. -/
theorem contains_of_breakOn? {mark cs before rest : List Char} (hMark : mark ≠ [])
    (h : breakOn? mark cs = some (before, rest)) : contains mark before = false := by
  induction cs generalizing before with
  | nil =>
      simp only [breakOn?, Option.map_eq_some_iff, Prod.mk.injEq] at h
      obtain ⟨_, -, rfl, -⟩ := h
      simpa [contains] using hMark
  | cons c cs ih =>
      have hWhole := eq_append_of_breakOn? h
      simp only [breakOn?] at h
      split at h
      · simp only [Option.some.injEq, Prod.mk.injEq] at h
        rw [← h.1]
        simpa [contains] using hMark
      · next hNone =>
          simp only [Option.map_eq_some_iff, Prod.mk.injEq] at h
          obtain ⟨⟨b, r⟩, hRest, rfl, rfl⟩ := h
          simp only [contains, ih hRest, Bool.or_false]
          refine Bool.eq_false_iff.mpr fun hFront => ?_
          have hSome := startsWith_append hFront (mark ++ r)
          rw [← List.append_assoc, ← hWhole, startsWith_eq_isSome_dropFront?, hNone] at hSome
          exact absurd hSome (by simp)

/-- A mark that is not found does not occur. -/
theorem contains_of_breakOn?_eq_none {mark cs : List Char} (h : breakOn? mark cs = none) :
    contains mark cs = false := by
  induction cs with
  | nil =>
      cases mark with
      | nil => simp [breakOn?, dropFront?] at h
      | cons m mark => rfl
  | cons c cs ih =>
      simp only [breakOn?] at h
      split at h
      · simp at h
      · next hNone =>
          simp only [contains, startsWith_eq_isSome_dropFront?, hNone, Option.isSome_none,
            Bool.false_or]
          exact ih (by simpa using h)

/-! ## How a token is taken off -/

/-- Behind an angle bracket that opens no tag, no comment and no declaration. -/
structure OpensNothing (cs : List Char) : Prop where
  letter : cs.head?.any isAsciiLetter = false
  mark : cs.head? ≠ some '!' ∧ cs.head? ≠ some '?'
  slash : cs.head? = some '/' → cs.tail.head?.any isAsciiLetter = false

/-- The ways in which a token is taken off the front of a page, one for each kind of construct that
can stand there. -/
inductive Token.Taken (foreign : Bool) : Char → List Char → Token × List Char → Prop where
  | comment (rest : List Char) :
      Taken foreign '<' ('!' :: '-' :: '-' :: rest) (Token.comment' rest)
  | declaration {mark : Char} (hMark : mark = '!' ∨ mark = '?') (rest : List Char)
      (hComment : ¬ ['!', '-', '-'] <+: mark :: rest) :
      Taken foreign '<' (mark :: rest)
        (.declaration ('<' :: mark :: (rest.takeWhile (· != '>') ++
          (rest.dropWhile (· != '>')).take 1)), afterBracket rest)
  | endTag {rest : List Char} (hLetter : rest.head?.any isAsciiLetter = true) :
      Taken foreign '<' ('/' :: rest) (.endTag (Markup.endTag rest).1, (Markup.endTag rest).2)
  | startTag {first : Char} (hLetter : isAsciiLetter first = true) (rest : List Char) :
      Taken foreign '<' (first :: rest) (Token.startTag' foreign (first :: rest))
  | text {c : Char} {cs : List Char} (hNothing : c = '<' → OpensNothing cs) :
      Taken foreign c cs (.text (c :: (plainText cs).1), (plainText cs).2)

/-- **Every token is taken off in one of these ways.** -/
theorem Token.taken_next (foreign : Bool) (c : Char) (cs : List Char) :
    Token.Taken foreign c cs (Token.next foreign c cs) := by
  unfold Token.next
  split
  · next hOpen =>
      rw [beq_iff_eq.mp hOpen]
      split
      · next rest => exact .comment rest
      · next d rest hOther =>
          split
          · next hEnd =>
              simp only [Bool.and_eq_true, beq_iff_eq] at hEnd
              rw [hEnd.1]
              exact .endTag hEnd.2
          · next hNoEnd =>
              split
              · next hMark =>
                  refine .declaration (by simpa using hMark) rest ?_
                  rintro ⟨behind, hSame⟩
                  rcases List.cons.inj hSame with ⟨rfl, rfl⟩
                  exact hOther behind rfl rfl
              · next hNoMark =>
                  split
                  · next hLetter => exact .startTag hLetter rest
                  · next hNoLetter =>
                      exact .text fun _ => ⟨by simpa using hNoLetter, by simpa using hNoMark,
                        by simpa using hNoEnd⟩
      · exact .text fun _ => ⟨rfl, by simp, by simp⟩
  · next hOther => exact .text fun hOpen => absurd (beq_iff_eq.mpr hOpen) hOther

/-! ## Every token is well formed -/

theorem wellFormed_comment' (foreign : Bool) (cs : List Char) :
    (Token.comment' cs).1.WellFormed foreign := by
  unfold Token.comment'
  split
  · next h => exact contains_of_breakOn? (by decide) h
  · next h => exact contains_of_breakOn?_eq_none h

theorem wellFormed_startTag' (foreign : Bool) {c : Char} {cs : List Char}
    (h : isAsciiLetter c = true) : (Token.startTag' foreign (c :: cs)).1.WellFormed foreign := by
  have hName := isElementName_lowerChars h cs
  unfold Token.startTag'
  dsimp only
  split
  · trivial
  · next body rest hBody =>
      have hAttributes := wellFormed_tagBody? .nil hBody
      split
      · next hRaw =>
          simp only [Bool.and_eq_true] at hRaw
          refine ⟨hName, hRaw.1, hAttributes, ?_⟩
          rw [String.toList_ofList]
          exact holdsEndTag_rawText _ rest
      · next hNotRaw =>
          refine ⟨hName, hAttributes, fun hRaw => ?_⟩
          simpa [hRaw] using hNotRaw

/-- A declaration ends at its first closing bracket. -/
theorem not_mem_dropLast_declaration {mark : Char} (hMark : mark ≠ '>') (cs : List Char) :
    '>' ∉ ('<' :: mark :: (cs.takeWhile (· != '>') ++
      (cs.dropWhile (· != '>')).take 1)).dropLast := by
  have hBody : '>' ∉ '<' :: mark :: cs.takeWhile (· != '>') := by
    have hTake : '>' ∉ cs.takeWhile (· != '>') := fun hMem => by
      simpa using List.all_eq_true.mp List.all_takeWhile '>' hMem
    simp [hTake, hMark.symm]
  cases hRest : cs.dropWhile (· != '>') with
  | nil =>
      rw [List.take_nil, List.append_nil]
      exact fun hMem => hBody (List.dropLast_subset _ hMem)
  | cons c rest =>
      rw [List.take_succ_cons, List.take_zero, ← List.cons_append, ← List.cons_append,
        List.dropLast_concat]
      exact hBody

/-- **Every token that is taken off a page is well formed.** -/
theorem wellFormed_next (foreign : Bool) (c : Char) (cs : List Char) :
    (Token.next foreign c cs).1.WellFormed foreign := by
  have hTaken := Token.taken_next foreign c cs
  generalize Token.next foreign c cs = taken at hTaken ⊢
  cases hTaken with
  | comment rest => exact wellFormed_comment' foreign rest
  | declaration hMark rest _ =>
      refine not_mem_dropLast_declaration ?_ rest
      rintro rfl
      exact absurd hMark (by decide)
  | startTag hLetter rest => exact wellFormed_startTag' foreign hLetter
  | endTag _ => trivial
  | text _ => trivial

end PagePreview.Markup
