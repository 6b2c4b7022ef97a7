import PagePreview.Markup.Document
import PagePreview.Proofs.Markup.Building
import PagePreview.Proofs.Markup.Grammar
import PagePreview.Proofs.Markup.RootShape
import PagePreview.Proofs.Markup.SourceOrder

/-!
# Every element of every page is well formed

Whatever text a page is read from, its elements are well formed.  The proof
follows the page through the reader.  Every token is well formed, the builder
keeps the nodes that it has and the elements that it holds open well formed
(`Builder.WellFormed.add`), and `normalize` only moves whole nodes between
elements that may hold any (`wellFormed_normalize`).

That no text is empty is proved on another way, through the row of parts that
a page consists of: a token brings no empty text, and normalising brings none
either, since it makes no parts but tags (`empty_not_mem_parse`).

* `wellFormed_parse`: every element of a page is well formed.
* `elements_parse`: what this says of names, attributes and contents, with the
  texts that are not empty.
-/

namespace PagePreview.Markup

open Text

/-! ## The builder keeps its nodes well formed -/

/-- An element that may be open: one that has content, and not raw text. -/
structure OpenElement.WellFormed (o : OpenElement) : Prop where
  named : isElementName o.name = true
  attributes : AttributesWellFormed o.attributes
  not_void : isVoid o.name = false
  not_raw : isRawText o.name = false
  before : ∀ n ∈ o.before, n.WellFormed

structure Builder.WellFormed (b : Builder) : Prop where
  path : ∀ o ∈ b.path, o.WellFormed
  nodes : ∀ n ∈ b.nodes, n.WellFormed

namespace Builder.WellFormed

variable {b : Builder}

/-- An open element is well formed with any content. -/
theorem closed {o : OpenElement} (h : o.WellFormed) {nodes : List Node}
    (hNodes : ∀ n ∈ nodes, n.WellFormed) :
    ∀ n ∈ Node.element o.name o.attributes nodes.reverse :: o.before, n.WellFormed := by
  intro n hn
  obtain rfl | hn := List.mem_cons.mp hn
  · exact wellFormed_element h.named h.attributes (by simp [h.not_void]) (by simp [h.not_raw])
      fun n hn => hNodes n (List.mem_reverse.mp hn)
  · exact h.before n hn

theorem addNode (h : b.WellFormed) {node : Node} (hNode : node.WellFormed) :
    (b.addNode node).WellFormed :=
  ⟨h.path, List.forall_mem_cons.mpr ⟨hNode, h.nodes⟩⟩

theorem addText (h : b.WellFormed) (cs : List Char) : (b.addText cs).WellFormed := by
  cases hText : b.nodes.head?.any Node.isText with
  | false =>
      rw [addText_of_not_text hText]
      exact h.addNode (wellFormed_text _)
  | true =>
      obtain ⟨t, rest, hNodes⟩ := exists_text_of_head?_isText hText
      rw [addText_of_text hNodes]
      have hRest := h.nodes
      rw [hNodes] at hRest
      exact ⟨h.path, List.forall_mem_cons.mpr
        ⟨wellFormed_text _, (List.forall_mem_cons.mp hRest).2⟩⟩

theorem close (h : b.WellFormed) (name : String) : (b.close name).WellFormed := by
  have hThrough : ∀ (path : List OpenElement) (nodes : List Node),
      (∀ o ∈ path, o.WellFormed) → (∀ n ∈ nodes, n.WellFormed) →
      ∀ n ∈ (closeThrough name path nodes).2, n.WellFormed := by
    intro path
    induction path with
    | nil => exact fun nodes _ hNodes => hNodes
    | cons o path ih =>
        intro nodes hPath hNodes
        obtain ⟨ho, hPath⟩ := List.forall_mem_cons.mp hPath
        simp only [closeThrough]
        split
        · exact closed ho hNodes
        · exact ih _ hPath (closed ho hNodes)
  refine ⟨fun o ho => h.path o (mem_path_of_mem_close ho), ?_⟩
  unfold Builder.close
  split
  · exact hThrough b.path b.nodes h.path h.nodes
  · exact h.nodes

theorem startTag (h : b.WellFormed) {name : String} {body : TagBody}
    (hToken : (Token.startTag name body).WellFormed b.inForeign) :
    (b.startTag name body).WellFormed := by
  obtain ⟨hName, hAttributes, hRaw⟩ := hToken
  -- only a body closes something first, and a body is no raw text
  have hRaw' : isRawText name = true →
      body.selfClosing = true ∧
        (if name == "body" then b.close "head" else b).inForeign = true := by
    intro hIsRaw
    have hNotBody : (name == "body") = false := by
      refine Bool.eq_false_iff.mpr fun hBody => ?_
      rw [beq_iff_eq.mp hBody] at hIsRaw
      exact absurd hIsRaw (by decide)
    rw [hNotBody]
    exact hRaw hIsRaw
  have hClosed : (if name == "body" then b.close "head" else b).WellFormed := by
    split
    · exact h.close "head"
    · exact h
  unfold Builder.startTag
  dsimp only
  generalize (if name == "body" then b.close "head" else b) = d at hRaw' hClosed ⊢
  split
  · exact hClosed.addNode
      (wellFormed_element hName hAttributes (fun _ => rfl) (fun _ => rfl) (by simp))
  · next hOpen =>
      have hNotRaw : isRawText name = false := by
        refine Bool.eq_false_iff.mpr fun hIsRaw => hOpen ?_
        simp [hRaw' hIsRaw]
      have hNotVoid : isVoid name = false := by
        refine Bool.eq_false_iff.mpr fun hIsVoid => hOpen ?_
        simp [hIsVoid]
      exact ⟨List.forall_mem_cons.mpr
        ⟨⟨hName, hAttributes, hNotVoid, hNotRaw, hClosed.nodes⟩, hClosed.path⟩,
        by simp [openElement]⟩

/-- **Adding a well-formed token keeps everything well formed.** -/
theorem add (h : b.WellFormed) {token : Token} (hToken : token.WellFormed b.inForeign) :
    (b.add token).WellFormed := by
  cases token with
  | text cs => exact h.addText cs
  | comment cs =>
      refine h.addNode ⟨?_, by simp⟩
      have hComment : contains commentEnd cs = false := hToken
      simpa [Node.isLegalComment] using hComment
  | declaration cs =>
      exact ⟨by simpa [Builder.add] using h.path, by simpa [Builder.add] using h.nodes⟩
  | startTag name body => exact h.startTag hToken
  | endTag name => exact h.close name
  | rawText name attributes cs =>
      obtain ⟨hName, hRaw, hAttributes, hContent⟩ := hToken
      exact h.addNode (wellFormed_element hName hAttributes
        (by simp [not_isVoid_of_isRawText hRaw])
        (fun _ => isRawContent_textChildren (by rwa [String.toList_ofList]))
        (wellFormed_textChildren _))

theorem run (h : b.WellFormed) (cs : List Char) : (b.run cs).WellFormed :=
  run_preserves (fun b c cs hb => hb.add (wellFormed_next b.inForeign c cs)) b cs h

theorem finish (h : b.WellFormed) : ∀ n ∈ b.finish, n.WellFormed := by
  have hAll : ∀ (path : List OpenElement) (nodes : List Node),
      (∀ o ∈ path, o.WellFormed) → (∀ n ∈ nodes, n.WellFormed) →
      ∀ n ∈ closeAll path nodes, n.WellFormed := by
    intro path
    induction path with
    | nil => exact fun nodes _ hNodes => hNodes
    | cons o path ih =>
        intro nodes hPath hNodes
        obtain ⟨ho, hPath⟩ := List.forall_mem_cons.mp hPath
        exact ih _ hPath (closed ho hNodes)
  exact fun n hn => hAll b.path b.nodes h.path h.nodes n (List.mem_reverse.mp hn)

end Builder.WellFormed

/-- The nodes of every page are well formed. -/
theorem wellFormed_parseNodes (html : String) : ∀ n ∈ (parseNodes html).2, n.WellFormed :=
  have hEmpty : Builder.WellFormed {} := ⟨by simp, by simp⟩
  (hEmpty.run html.toList).finish

/-! ## Normalising keeps the nodes well formed -/

/-- An element that may hold any nodes stays well formed with other ones. -/
theorem Node.WellFormed.withChildren {e : Element} (h : e.toNode.WellFormed)
    (hVoid : isVoid e.name = false) (hRaw : isRawText e.name = false) {children : List Node}
    (hChildren : ∀ n ∈ children, n.WellFormed) :
    ({ e with children } : Element).toNode.WellFormed :=
  wellFormed_element h.element.named h.element.attributes (by simp [hVoid]) (by simp [hRaw])
    hChildren

theorem wellFormed_changeChild {e : Element} (h : e.toNode.WellFormed)
    (hVoid : isVoid e.name = false) (hRaw : isRawText e.name = false) {name : String}
    {change : Element → Element}
    (hChange : ∀ c : Element, c.name = name → c.toNode.WellFormed → (change c).toNode.WellFormed) :
    (e.changeChild name change).toNode.WellFormed := by
  refine h.withChildren hVoid hRaw ?_
  cases hFound : breakAt? name e.children with
  | none =>
      rw [changeFirst_of_breakAt?_eq_none hFound]
      exact h.children
  | some found =>
      obtain ⟨before, c, after⟩ := found
      obtain ⟨hEq, hName, -⟩ := breakAt?_eq_some_iff.mp hFound
      have hChildren := h.children
      rw [hEq] at hChildren
      rw [changeFirst_of_breakAt? hFound]
      simp only [List.mem_append, List.mem_cons, or_imp, forall_and, forall_eq] at hChildren ⊢
      exact ⟨hChildren.1, hChange c hName hChildren.2.1, hChildren.2.2⟩

theorem wellFormed_ensureHead {html : Element} (h : html.toNode.WellFormed)
    (hVoid : isVoid html.name = false) (hRaw : isRawText html.name = false) :
    (ensureHead html).toNode.WellFormed := by
  unfold ensureHead
  split
  · exact h
  · refine h.withChildren hVoid hRaw (List.forall_mem_cons.mpr ⟨?_, h.children⟩)
    exact wellFormed_element (by decide) .nil (fun _ => rfl) (fun _ => rfl) (by simp)

theorem wellFormed_hoistIntoHead {html : Element} (h : html.toNode.WellFormed)
    (hVoid : isVoid html.name = false) (hRaw : isRawText html.name = false) :
    (hoistIntoHead html).toNode.WellFormed := by
  unfold hoistIntoHead
  split
  · exact h
  · next before head after hFound =>
      obtain ⟨hEq, hName, -⟩ := breakAt?_eq_some_iff.mp hFound
      have hChildren := h.children
      rw [hEq] at hChildren
      simp only [List.mem_append, List.mem_cons, or_imp, forall_and, forall_eq] at hChildren
      split
      · refine h.withChildren hVoid hRaw (List.forall_mem_cons.mpr ⟨?_, hChildren.2.2⟩)
        refine hChildren.2.1.withChildren (by rw [hName]; decide) (by rw [hName]; decide) ?_
        simp only [List.mem_append, List.mem_filter, or_imp, forall_and]
        exact ⟨fun n hn => hChildren.1 n hn.1, hChildren.2.1.children⟩
      · exact h

theorem wellFormed_prepend {e : Element} (h : e.toNode.WellFormed)
    (hVoid : isVoid e.name = false) (hRaw : isRawText e.name = false) {nodes : List Node}
    (hNodes : ∀ n ∈ nodes, n.WellFormed) : (e.prepend nodes).toNode.WellFormed :=
  h.withChildren hVoid hRaw fun n hn =>
    (List.mem_append.mp hn).elim (hNodes n) (h.children n)

theorem wellFormed_append {e : Element} (h : e.toNode.WellFormed)
    (hVoid : isVoid e.name = false) (hRaw : isRawText e.name = false) {nodes : List Node}
    (hNodes : ∀ n ∈ nodes, n.WellFormed) : (e.append nodes).toNode.WellFormed :=
  h.withChildren hVoid hRaw fun n hn =>
    (List.mem_append.mp hn).elim (h.children n) (hNodes n)

theorem wellFormed_wrapInHtml {nodes : List Node} (h : ∀ n ∈ nodes, n.WellFormed) :
    (wrapInHtml nodes).toNode.WellFormed := by
  have hContent : ∀ n ∈ nodes.filter Node.isContent, n.WellFormed := fun n hn =>
    h n (List.mem_filter.mp hn).1
  have hFrame : ∀ name children, isElementName name = true → isVoid name = false →
      isRawText name = false → (∀ n ∈ children, Node.WellFormed n) →
      (Node.element name [] children).WellFormed := fun name children hName hVoid hRaw hNodes =>
    wellFormed_element hName .nil (by simp [hVoid]) (by simp [hRaw]) hNodes
  unfold wrapInHtml
  split
  · exact wellFormed_hoistIntoHead
      (hFrame "html" _ (by decide) (by decide) (by decide) hContent)
      (show isVoid "html" = false by decide) (show isRawText "html" = false by decide)
  · refine hFrame "html" _ (by decide) (by decide) (by decide) ?_
    refine List.forall_mem_cons.mpr ⟨?_, List.forall_mem_cons.mpr ⟨?_, by simp⟩⟩
    · exact hFrame "head" _ (by decide) (by decide) (by decide) fun n hn =>
        h n ((List.takeWhile_sublist _).mem (List.mem_filter.mp hn).1)
    · exact hFrame "body" _ (by decide) (by decide) (by decide) fun n hn =>
        h n ((List.dropWhile_sublist _).mem hn)

/-- **Normalising keeps every element well formed.** -/
theorem wellFormed_normalize {nodes : List Node} (h : ∀ n ∈ nodes, n.WellFormed) :
    (normalize nodes).toNode.WellFormed := by
  unfold normalize
  split
  · exact wellFormed_ensureHead (wellFormed_wrapInHtml h) (by rw [name_wrapInHtml]; decide)
      (by rw [name_wrapInHtml]; decide)
  · next before html after hFound =>
      obtain ⟨rfl, hName, -⟩ := breakAt?_eq_some_iff.mp hFound
      simp only [List.mem_append, List.mem_cons, or_imp, forall_and, forall_eq] at h
      have hVoid : isVoid html.name = false := by rw [hName]; decide
      have hRaw : isRawText html.name = false := by rw [hName]; decide
      have hHoisted : (hoistIntoHead (ensureHead html)).toNode.WellFormed :=
        wellFormed_hoistIntoHead (wellFormed_ensureHead h.2.1 hVoid hRaw) (by simpa) (by simpa)
      have hFront : ∀ c : Element, c.name = "head" → c.toNode.WellFormed →
          (c.prepend (before.filter Node.isContent)).toNode.WellFormed := fun c hc hWF =>
        wellFormed_prepend hWF (by rw [hc]; decide) (by rw [hc]; decide)
          fun n hn => h.1 n (List.mem_filter.mp hn).1
      have hHead := wellFormed_changeChild hHoisted (by simpa) (by simpa) hFront
      have hAfter : ∀ n ∈ after.filter Node.isContent, n.WellFormed := fun n hn =>
        h.2.2 n (List.mem_filter.mp hn).1
      refine wellFormed_ensureHead ?_ (by simpa) (by simpa)
      unfold appendToBody
      split
      · exact wellFormed_changeChild hHead (by simpa) (by simpa) fun c hc hWF =>
          wellFormed_append hWF (by rw [hc]; decide) (by rw [hc]; decide) hAfter
      · exact wellFormed_append hHead (by simpa) (by simpa) hAfter

/-- **Every element of every page is well formed**, its root included. -/
theorem wellFormed_parse (html : String) : (Document.parse html).root.toNode.WellFormed :=
  wellFormed_normalize (wellFormed_parseNodes html)

/-! ## No text is empty -/

theorem empty_not_mem_textChildren (t : String) : Part.text "" ∉ partsOf (textChildren t) := by
  unfold textChildren
  split
  · simp
  · next hSome =>
      intro hMem
      have hEmpty : "" = t := by simpa [Node.parts] using hMem
      exact hSome (by rw [← hEmpty]; rfl)

/-- No token brings an empty text. -/
theorem empty_not_mem_parts_next (foreign : Bool) (c : Char) (cs : List Char) :
    Part.text "" ∉ (Token.next foreign c cs).1.parts := by
  have hText : ∀ (d : Char) (ds : List Char), Part.text "" ∉ (Token.text (d :: ds)).parts := by
    simp [Token.parts]
  have hTaken := Token.taken_next foreign c cs
  generalize Token.next foreign c cs = taken at hTaken ⊢
  cases hTaken with
  | comment rest =>
      unfold Token.comment'
      split <;> simp [Token.parts]
  | declaration _ rest _ => simp [Token.parts]
  | endTag _ => simp [Token.parts]
  | startTag _ rest =>
      unfold Token.startTag'
      split
      · exact hText '<' _
      · dsimp only
        split
        · intro hMem
          have hInside := (List.mem_cons.mp hMem).resolve_left (by simp)
          exact empty_not_mem_textChildren _ hInside
        · simp [Token.parts]
  | text _ => exact hText c _

/-- A text that becomes longer does not become empty. -/
theorem Builder.empty_not_mem_finish_add {b : Builder} {token : Token}
    (h : Part.text "" ∉ partsOf b.finish) (hToken : Part.text "" ∉ token.parts) :
    Part.text "" ∉ partsOf (b.add token).finish := by
  intro hMem
  rcases b.partsOf_finish_add token with hAdded | ⟨front, t, cs, -, hBefore, hAfter⟩
  · rw [hAdded, List.mem_append] at hMem
    exact hMem.elim h hToken
  · rw [hAfter, List.mem_append, List.mem_singleton] at hMem
    rw [hBefore] at h
    rcases hMem with hFront | hLast
    · exact h (List.mem_append_left _ hFront)
    · have hEmpty : t = "" := by
        have hJoined : t ++ String.ofList cs = "" := (Part.text.inj hLast).symm
        exact (String.append_eq_empty_iff.mp hJoined).1
      exact h (by simp [hEmpty])

theorem empty_not_mem_parseNodes (html : String) :
    Part.text "" ∉ partsOf (parseNodes html).2 := by
  refine Builder.run_preserves (P := fun b => Part.text "" ∉ partsOf b.finish) ?_ {} html.toList
    (by simp [Builder.finish, Builder.closeAll])
  intro b c cs h
  exact Builder.empty_not_mem_finish_add h (empty_not_mem_parts_next b.inForeign c cs)

/-- Normalising makes no text. -/
theorem empty_not_mem_parse (html : String) : Part.text "" ∉ (Document.parse html).root.parts := by
  intro hMem
  rcases exists_perm_parts (parseNodes html).2 with ⟨added, dropped, -, -, hPerm⟩
  have hSource := hPerm.mem_iff.mp (List.mem_append_left _ hMem)
  rcases List.mem_append.mp hSource with hAdded | hRead
  · simp [bareTags] at hAdded
  · exact empty_not_mem_parseNodes html hRead

mutual
private theorem node_text_mem_parts {e : Element} {t : String} (ht : Node.text t ∈ e.children) :
    ∀ node : Node, e ∈ node.elements → Part.text t ∈ node.parts
  | .element name attributes children, h => by
      show Part.text t ∈ Part.tag name attributes :: partsOf children
      refine List.mem_cons_of_mem _ ?_
      rw [elements_element, List.mem_cons] at h
      rcases h with rfl | hBelow
      · exact mem_partsOf ht (List.mem_singleton_self _)
      · exact text_mem_partsOf ht children hBelow
  | .text _, h => by simp at h
  | .comment _, h => by simp at h
/-- The texts of the elements are among the parts. -/
theorem text_mem_partsOf {e : Element} {t : String} (ht : Node.text t ∈ e.children) :
    ∀ nodes : List Node, e ∈ elementsOf nodes → Part.text t ∈ partsOf nodes
  | [], h => by simp at h
  | node :: rest, h => by
      rw [elementsOf_cons, List.mem_append] at h
      rw [partsOf_cons, List.mem_append]
      exact h.imp (node_text_mem_parts ht node) (text_mem_partsOf ht rest)
end

/-! ## The elements of a page -/

/-- Raw text is nothing or one text, and so it is what the element has as its text. -/
theorem of_isRawContent {e : Element} (h : isRawContent e.name e.children = true) :
    (e.children = [] ∨ ∃ t, t ≠ "" ∧ e.children = [.text t] ∧
        holdsEndTag e.name.toList t.toList = false) ∧
      ∀ n ∈ e.children, n = .text e.text := by
  rw [Element.text]
  generalize e.children = children at h ⊢
  unfold isRawContent at h
  split at h
  · exact ⟨Or.inl rfl, by simp⟩
  · next t =>
      simp only [Bool.and_eq_true, Bool.not_eq_true', List.isEmpty_eq_false_iff] at h
      refine ⟨Or.inr ⟨t, ?_, rfl, h.2⟩, ?_⟩
      · rintro rfl
        exact h.1 rfl
      · intro n hn
        rw [List.mem_singleton.mp hn]
        simp [textOf]
  · exact absurd h (by simp)

/-- **What reading guarantees of every element of a page**, its root included. -/
theorem elements_parse (html : String) :
    ∀ e ∈ (Document.parse html).root.toNode.elements,
      isElementName e.name = true ∧
      (e.attributes.map (·.name)).Nodup ∧
      (∀ a ∈ e.attributes, isAttributeName a.name = true) ∧
      (isVoid e.name = true → e.children = []) ∧
      (isRawText e.name = true →
        (e.children = [] ∨ ∃ t, t ≠ "" ∧ e.children = [.text t] ∧
          holdsEndTag e.name.toList t.toList = false) ∧
        ∀ n ∈ e.children, n = .text e.text) ∧
      ∀ t, Node.text t ∈ e.children → t ≠ "" := by
  intro e he
  have hElement : e.WellFormed := (wellFormed_parse html).elements e he
  refine ⟨hElement.named, hElement.attributes.distinct, hElement.attributes.named, hElement.void,
    fun hRaw => of_isRawContent (hElement.raw hRaw), ?_⟩
  rintro t ht rfl
  have hPart := text_mem_partsOf ht [(Document.parse html).root.toNode] (by simpa using he)
  exact empty_not_mem_parse html (by simpa using hPart)

/-- A script that is not closed before the page ends, with another end tag in its text. -/
theorem elements_parse_script :
    ∃ e ∈ (Document.parse "<Script SRC=a src=b>x</scripts></SCRIPT").root.toNode.elements,
      (e.name = "script" ∧ e.attributes = [⟨"src", "a"⟩] ∧ e.text = "x</scripts>") ∧
      isElementName e.name = true ∧
      (e.attributes.map (·.name)).Nodup ∧
      (∀ a ∈ e.attributes, isAttributeName a.name = true) ∧
      (isVoid e.name = true → e.children = []) ∧
      (isRawText e.name = true →
        (e.children = [] ∨ ∃ t, t ≠ "" ∧ e.children = [.text t] ∧
          holdsEndTag e.name.toList t.toList = false) ∧
        ∀ n ∈ e.children, n = .text e.text) ∧
      ∀ t, Node.text t ∈ e.children → t ≠ "" := by
  have hPage : ((Document.parse
      "<Script SRC=a src=b>x</scripts></SCRIPT").root.toNode.elements.any fun e =>
        e.name == "script" && e.attributes == [⟨"src", "a"⟩] && e.text == "x</scripts>") = true := by
    decide +kernel
  rcases List.any_eq_true.mp hPage with ⟨e, he, hShape⟩
  simp only [Bool.and_eq_true, beq_iff_eq] at hShape
  exact ⟨e, he, ⟨hShape.1.1, hShape.1.2, hShape.2⟩, elements_parse _ e he⟩

end PagePreview.Markup
