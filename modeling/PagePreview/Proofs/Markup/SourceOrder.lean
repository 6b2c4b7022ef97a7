import PagePreview.Proofs.Markup.Building
import PagePreview.Proofs.Markup.Contents
import PagePreview.Proofs.Markup.Grammar

/-!
# The elements of a page in the order of its source

An element only gets its place in the tree when it is closed, and it may be
closed by the end tag of another element, by the start of a body, or by the
end of the page.  The walk through the finished tree does not see this: it
meets the elements in the order in which they were opened.

The reason is that closing all open elements puts what the innermost one holds
behind everything else (`exists_partsOf_closeAll`).  So a token only ever adds
its parts at the end, unless it continues the last text
(`partsOf_finish_add`).

`Builder.stops` are the places of the page at which a token is taken off.  At
such a place `startTagAt?` tells whether a start tag stands there, from the
text alone, and `elements_parseNodes` says that the elements of a page are
these start tags, one for one and in their order.
-/

namespace PagePreview.Markup

open Text

/-! ## What a token adds -/

/-- The parts that a token brings. -/
def Token.parts : Token → List Part
  | .text cs => [.text (String.ofList cs)]
  | .comment cs => [.comment (String.ofList cs)]
  | .declaration _ => []
  | .startTag name body => [.tag name body.attributes]
  | .endTag _ => []
  | .rawText name attributes cs =>
      .tag name attributes :: partsOf (textChildren (String.ofList cs))

namespace Builder

/-- What the innermost open element holds comes behind all that has been read before. -/
theorem exists_partsOf_closeAll (path : List OpenElement) :
    ∃ outer, ∀ nodes, partsOf (closeAll path nodes).reverse = outer ++ partsOf nodes.reverse := by
  induction path with
  | nil => exact ⟨[], fun nodes => rfl⟩
  | cons o path ih =>
      rcases ih with ⟨outer, hOuter⟩
      refine ⟨outer ++ partsOf o.before.reverse ++ [.tag o.name o.attributes], ?_⟩
      intro nodes
      rw [closeAll, hOuter, List.reverse_cons, partsOf_append]
      simp [Node.parts]

theorem partsOf_finish_addNode (b : Builder) (node : Node) :
    partsOf (b.addNode node).finish = partsOf b.finish ++ node.parts := by
  rcases exists_partsOf_closeAll b.path with ⟨outer, hOuter⟩
  show partsOf (closeAll b.path (node :: b.nodes)).reverse = _
  rw [finish, hOuter, hOuter, List.reverse_cons, partsOf_append]
  simp

/-- A text is added behind everything, or it makes the last text longer. -/
theorem partsOf_finish_addText (b : Builder) (cs : List Char) :
    partsOf (b.addText cs).finish = partsOf b.finish ++ [.text (String.ofList cs)] ∨
      ∃ front t, partsOf b.finish = front ++ [.text t] ∧
        partsOf (b.addText cs).finish = front ++ [.text (t ++ String.ofList cs)] := by
  cases hText : b.nodes.head?.any Node.isText with
  | false =>
      rw [addText_of_not_text hText]
      exact Or.inl (partsOf_finish_addNode b _)
  | true =>
      rcases exists_text_of_head?_isText hText with ⟨t, rest, hNodes⟩
      rcases exists_partsOf_closeAll b.path with ⟨outer, hOuter⟩
      refine Or.inr ⟨outer ++ partsOf rest.reverse, t, ?_, ?_⟩
      · rw [finish, hOuter, hNodes]
        simp [Node.parts]
      · rw [addText_of_text hNodes, finish, hOuter]
        simp [Node.parts]

/-- **What a token does to the tree**: its parts come behind everything, or it makes the last text
longer. -/
theorem partsOf_finish_add (b : Builder) (token : Token) :
    partsOf (b.add token).finish = partsOf b.finish ++ token.parts ∨
      ∃ front t cs, token = .text cs ∧ partsOf b.finish = front ++ [.text t] ∧
        partsOf (b.add token).finish = front ++ [.text (t ++ String.ofList cs)] := by
  cases token with
  | text cs =>
      rcases partsOf_finish_addText b cs with hAdded | ⟨front, t, hBefore, hAfter⟩
      · exact Or.inl hAdded
      · exact Or.inr ⟨front, t, cs, rfl, hBefore, hAfter⟩
  | comment cs => exact Or.inl (partsOf_finish_addNode b _)
  | declaration cs =>
      refine Or.inl ?_
      simp [add, finish, Token.parts]
  | startTag name body =>
      refine Or.inl ?_
      rcases finish_startTag b name body with ⟨d, hFinish, -, hStart⟩
      show partsOf (b.startTag name body).finish = _
      rw [hStart, partsOf_finish_addNode, hFinish]
      rfl
  | endTag name =>
      refine Or.inl ?_
      show partsOf (b.close name).finish = _
      rw [finish_close, Token.parts, List.append_nil]
  | rawText name attributes cs => exact Or.inl (partsOf_finish_addNode b _)

end Builder

/-! ## Start tags in the source -/

/-- The name and the attributes of the start tag that a text begins with: an angle bracket, a
letter, and all that belongs to a tag up to its end. -/
def startTagAt? : List Char → Option (String × List Attribute)
  | [] => none
  | c :: cs =>
    if c == '<' && cs.head?.any isAsciiLetter then
      (tagBody? [] (cs.dropWhile isNameChar)).map fun (body, _) =>
        (String.ofList (lowerChars (cs.takeWhile isNameChar)), body.attributes)
    else none

theorem filterMap_tag?_textChildren (t : String) :
    (partsOf (textChildren t)).filterMap Part.tag? = [] := by
  unfold textChildren
  split <;> rfl

/-- The token of a start tag brings the tag, in foreign content or not. -/
theorem filterMap_tag?_startTag' (foreign : Bool) (cs : List Char) :
    (Token.startTag' foreign cs).1.parts.filterMap Part.tag? =
      ((tagBody? [] (cs.dropWhile isNameChar)).map fun (body, _) =>
        (String.ofList (lowerChars (cs.takeWhile isNameChar)), body.attributes)).toList := by
  unfold Token.startTag'
  cases hBody : tagBody? [] (cs.dropWhile isNameChar) with
  | none => rfl
  | some found =>
      rcases found with ⟨body, rest⟩
      dsimp only
      split
      · simp [Token.parts, Part.tag?, filterMap_tag?_textChildren]
      · rfl

/-- **A token brings a tag exactly where a start tag stands.** -/
theorem filterMap_tag?_next (foreign : Bool) (c : Char) (cs : List Char) :
    (Token.next foreign c cs).1.parts.filterMap Part.tag? = (startTagAt? (c :: cs)).toList := by
  have hTaken := Token.taken_next foreign c cs
  generalize Token.next foreign c cs = taken at hTaken ⊢
  cases hTaken with
  | comment rest =>
      unfold Token.comment'
      split <;> rfl
  | declaration hMark rest _ => rcases hMark with rfl | rfl <;> rfl
  | endTag _ => rfl
  | startTag hLetter rest =>
      rw [filterMap_tag?_startTag', startTagAt?, if_pos (by simp [hLetter])]
  | text hNothing =>
      have hNone : ¬ (c == '<' && cs.head?.any isAsciiLetter) = true := by
        intro hBoth
        rw [Bool.and_eq_true, beq_iff_eq] at hBoth
        exact absurd hBoth.2 (by simp [(hNothing hBoth.1).letter])
      rw [startTagAt?, if_neg hNone]
      rfl

/-! ## What a token leaves -/

theorem suffix_dropBlanks (cs : List Char) : dropBlanks cs <:+ cs := List.dropWhile_suffix _

theorem suffix_of_dropBlanks {cs : List Char} {c : Char} {rest : List Char}
    (h : dropBlanks cs = c :: rest) : rest <:+ cs := by
  have hAll := suffix_dropBlanks cs
  rw [h] at hAll
  exact (List.suffix_cons c rest).trans hAll

theorem suffix_attributeValue? {cs value rest : List Char}
    (h : attributeValue? cs = some (value, rest)) : rest <:+ cs := by
  cases cs with
  | nil => simp [attributeValue?] at h
  | cons c cs =>
      simp only [attributeValue?] at h
      split at h
      · split at h
        · simp at h
        · next d after hDrop =>
            simp only [Option.some.injEq, Prod.mk.injEq] at h
            rcases h with ⟨-, rfl⟩
            have hQuote : d :: after <:+ cs := hDrop ▸ List.dropWhile_suffix _
            exact ((List.suffix_cons d after).trans hQuote).trans (List.suffix_cons c cs)
      · simp only [Option.some.injEq, Prod.mk.injEq] at h
        rcases h with ⟨-, rfl⟩
        exact List.dropWhile_suffix _

theorem suffix_valueAfterName? {cs value rest : List Char}
    (h : valueAfterName? cs = some (value, rest)) : rest <:+ cs := by
  unfold valueAfterName? at h
  split at h
  · next after hMark =>
      have hValue := (suffix_attributeValue? h).trans (suffix_dropBlanks after)
      exact hValue.trans (suffix_of_dropBlanks hMark)
  · simp only [Option.some.injEq, Prod.mk.injEq] at h
    rcases h with ⟨-, rfl⟩
    exact suffix_dropBlanks cs

theorem suffix_tagBody? {seen : List Attribute} {cs rest : List Char} {body : TagBody}
    (h : tagBody? seen cs = some (body, rest)) : rest <:+ cs := by
  fun_induction tagBody? seen cs generalizing rest body with
  | case1 => simp at h
  | case2 seen cs r hr =>
      simp only [Option.some.injEq, Prod.mk.injEq] at h
      rcases h with ⟨-, rfl⟩
      exact suffix_of_dropBlanks hr
  | case3 seen cs r hr =>
      simp only [Option.some.injEq, Prod.mk.injEq] at h
      rcases h with ⟨-, rfl⟩
      exact (List.suffix_cons '>' r).trans (suffix_of_dropBlanks hr)
  | case4 seen cs r _ hr ih => exact (ih h).trans (suffix_of_dropBlanks hr)
  | case5 => simp at h
  | case6 seen cs c r _ _ _ hr _ value after hv ih =>
      have hName : after <:+ r := (suffix_valueAfterName? hv).trans (List.dropWhile_suffix _)
      exact ((ih h).trans hName).trans (suffix_of_dropBlanks hr)
  | case7 seen cs c r _ _ _ hr _ ih => exact (ih h).trans (suffix_of_dropBlanks hr)

theorem suffix_afterBracket (cs : List Char) : afterBracket cs <:+ cs :=
  (List.drop_suffix _ _).trans (List.dropWhile_suffix _)

theorem suffix_endTag (cs : List Char) : (endTag cs).2 <:+ cs :=
  ((suffix_afterBracket _).trans (List.dropWhile_suffix _)).trans (suffix_dropBlanks cs)

theorem suffix_rawText (name cs : List Char) : (rawText name cs).2 <:+ cs :=
  ⟨_, rawText_append name cs⟩

theorem suffix_plainText (cs : List Char) : (plainText cs).2 <:+ cs := ⟨_, plainText_append cs⟩

theorem suffix_comment' (cs : List Char) : (Token.comment' cs).2 <:+ cs := by
  unfold Token.comment'
  split
  · next body rest h =>
      rw [eq_append_of_breakOn? h]
      exact List.suffix_append _ _
  · exact List.nil_suffix

theorem suffix_startTag' (foreign : Bool) (cs : List Char) :
    (Token.startTag' foreign cs).2 <:+ cs := by
  unfold Token.startTag'
  split
  · exact List.nil_suffix
  · next body rest h =>
      have hBody : rest <:+ cs := (suffix_tagBody? h).trans (List.dropWhile_suffix _)
      dsimp only
      split
      · have hRaw := (List.drop_suffix 2 _).trans
          (suffix_rawText (lowerChars (cs.takeWhile isNameChar)) rest)
        exact ((suffix_endTag _).trans hRaw).trans hBody
      · exact hBody

/-- **A token is taken off the front**: what is left is the end of what was there. -/
theorem suffix_next (foreign : Bool) (c : Char) (cs : List Char) :
    (Token.next foreign c cs).2 <:+ cs := by
  have hTaken := Token.taken_next foreign c cs
  generalize Token.next foreign c cs = taken at hTaken ⊢
  cases hTaken with
  | comment rest => exact (suffix_comment' rest).trans ⟨['!', '-', '-'], rfl⟩
  | declaration _ rest _ => exact (suffix_afterBracket rest).trans (List.suffix_cons _ rest)
  | endTag _ => exact (suffix_endTag _).trans (List.suffix_cons '/' _)
  | startTag _ rest => exact suffix_startTag' foreign _
  | text _ => exact suffix_plainText cs

theorem suffix_of_next {foreign : Bool} {c : Char} {cs rest : List Char} {token : Token}
    (h : Token.next foreign c cs = (token, rest)) : rest <:+ cs := by
  have hLeft := suffix_next foreign c cs
  rwa [h] at hLeft

/-! ## The places where the reader stops -/

namespace Builder

/-- The places at which tokens are taken off a page: what is left of the page there. -/
def stops (b : Builder) : List Char → List (List Char)
  | [] => []
  | c :: cs =>
    match _h : Token.next b.inForeign c cs with
    | (token, rest) => (c :: cs) :: stops (b.add token) rest
termination_by cs => cs.length
decreasing_by
  have := Token.length_next_lt b.inForeign c cs
  rwa [_h] at this

/-- A token adds its tag behind the others, wherever it is put. -/
theorem filterMap_tag?_finish_add (b : Builder) (token : Token) :
    (partsOf (b.add token).finish).filterMap Part.tag? =
      (partsOf b.finish).filterMap Part.tag? ++ token.parts.filterMap Part.tag? := by
  rcases partsOf_finish_add b token with hAdded | ⟨front, t, more, rfl, hBefore, hAfter⟩
  · rw [hAdded, List.filterMap_append]
  · rw [hBefore, hAfter, List.filterMap_append, List.filterMap_append, List.append_assoc]
    rfl

/-- **Reading on adds the tags of the start tags that are met.** -/
theorem filterMap_tag?_run (b : Builder) (cs : List Char) :
    (partsOf (b.run cs).finish).filterMap Part.tag? =
      (partsOf b.finish).filterMap Part.tag? ++ (b.stops cs).filterMap startTagAt? := by
  fun_induction stops b cs with
  | case1 b => simp
  | case2 b c cs token rest hNext ih =>
      have hTag : token.parts.filterMap Part.tag? = (startTagAt? (c :: cs)).toList := by
        have hTaken := filterMap_tag?_next b.inForeign c cs
        rwa [hNext] at hTaken
      rw [run_cons, hNext, ih, filterMap_tag?_finish_add, hTag, List.append_assoc]
      congr 1
      cases hAt : startTagAt? (c :: cs) with
      | none => rw [List.filterMap_cons_none hAt]; rfl
      | some tag => rw [List.filterMap_cons_some hAt]; rfl

theorem suffix_of_mem_stops {b : Builder} {cs place : List Char} (h : place ∈ b.stops cs) :
    place <:+ cs := by
  fun_induction stops b cs with
  | case1 b => simp at h
  | case2 b c cs token rest hNext ih =>
      rcases List.mem_cons.mp h with rfl | hLater
      · exact List.suffix_rfl
      · exact ((ih hLater).trans (suffix_of_next hNext)).trans (List.suffix_cons c cs)

/-- Every place lies behind the ones before it. -/
theorem pairwise_stops (b : Builder) (cs : List Char) :
    (b.stops cs).Pairwise fun early late => late <:+ early ∧ late ≠ early := by
  fun_induction stops b cs with
  | case1 b => exact List.Pairwise.nil
  | case2 b c cs token rest hNext ih =>
      refine List.Pairwise.cons ?_ ih
      intro place hLater
      have hBehind : place <:+ cs := (suffix_of_mem_stops hLater).trans (suffix_of_next hNext)
      refine ⟨hBehind.trans (List.suffix_cons c cs), ?_⟩
      rintro rfl
      have hLength := hBehind.length_le
      rw [List.length_cons] at hLength
      omega

end Builder

/-- **The elements of a page are its start tags, one for one and in their order.**  The walk
through the nodes that are read meets an element for every start tag at which the reader stops,
with the name and the attributes of that tag, and meets them in the order in which they stand in
the source: every stop lies further on than the ones before it. -/
theorem elements_parseNodes (html : String) :
    (elementsOf (parseNodes html).2).map Element.tag =
        (Builder.stops {} html.toList).filterMap startTagAt? ∧
      (∀ place ∈ Builder.stops {} html.toList, place <:+ html.toList) ∧
      (Builder.stops {} html.toList).Pairwise fun early late =>
        late <:+ early ∧ late ≠ early := by
  refine ⟨?_, fun place hPlace => Builder.suffix_of_mem_stops hPlace,
    Builder.pairwise_stops {} html.toList⟩
  rw [← filterMap_tag?]
  exact Builder.filterMap_tag?_run {} html.toList

/-- Misnested, stray and missing end tags do not change the order. -/
example : (elementsOf (parseNodes "<b><i></b></u>x<p a=1>y<br></i></p").2).map Element.tag =
    [("b", []), ("i", []), ("p", [⟨"a", "1"⟩]), ("br", [])] := by decide +kernel

end PagePreview.Markup
