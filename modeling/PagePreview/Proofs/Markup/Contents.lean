import Mathlib.Data.List.Perm.Basic
import PagePreview.Proofs.Markup.RootShape

/-!
# What normalising keeps

A `Part` is what a single node shows of itself: the tag of an element, a text
or a comment.  `partsOf` lists the parts of a whole forest, and as a multiset
this list says what is in the forest, wherever it stands.

Every step of `normalize` is an equation of such multisets: it moves parts,
puts in the tag of a head, or takes out nodes that are no content.  Put
together they say what the root of a page consists of (`exists_perm_parts`),
and `normalize_keepsContents` reads off what becomes of the elements and of
the texts.

Nodes can only get lost where they are loose: at top level, and in front of
the head of the `html` element.
-/

namespace PagePreview.Markup

open Text

/-! ## Parts -/

/-- What a node shows of itself, without what is inside it. -/
inductive Part where
  | tag (name : String) (attributes : List Attribute)
  | text (text : String)
  | comment (text : String)
deriving DecidableEq

mutual
/-- The parts of a node, in document order. -/
def Node.parts : Node → List Part
  | .element name attributes children => .tag name attributes :: partsOf children
  | .text t => [.text t]
  | .comment t => [.comment t]
/-- The parts of a list of nodes, in document order. -/
def partsOf : List Node → List Part
  | [] => []
  | node :: rest => node.parts ++ partsOf rest
end

/-- The parts of an element, its own tag first. -/
def Element.parts (e : Element) : List Part := .tag e.name e.attributes :: partsOf e.children

@[simp] theorem partsOf_nil : partsOf [] = [] := rfl

@[simp] theorem partsOf_cons (node : Node) (rest : List Node) :
    partsOf (node :: rest) = node.parts ++ partsOf rest := rfl

@[simp] theorem parts_toNode (e : Element) : e.toNode.parts = e.parts := rfl

@[simp] theorem partsOf_append (xs ys : List Node) :
    partsOf (xs ++ ys) = partsOf xs ++ partsOf ys := by
  induction xs with
  | nil => rfl
  | cons node rest ih => simp [ih]

theorem mem_partsOf {node : Node} {part : Part} {nodes : List Node} (hNode : node ∈ nodes)
    (hPart : part ∈ node.parts) : part ∈ partsOf nodes := by
  induction nodes with
  | nil => simp at hNode
  | cons first rest ih =>
      rw [partsOf_cons, List.mem_append]
      rcases List.mem_cons.mp hNode with rfl | hRest
      · exact Or.inl hPart
      · exact Or.inr (ih hRest)

/-- Sorting nodes into two lists loses no part. -/
theorem count_partsOf_filter (p : Node → Bool) (part : Part) (nodes : List Node) :
    (partsOf (nodes.filter p)).count part + (partsOf (nodes.filter (!p ·))).count part =
      (partsOf nodes).count part := by
  induction nodes with
  | nil => rfl
  | cons node rest ih =>
      simp only [List.filter_cons, partsOf_cons, List.count_append]
      by_cases hNode : p node = true
      · simp only [hNode, Bool.not_true, if_true, partsOf_cons, List.count_append]
        simp only [Bool.false_eq_true, if_false]
        omega
      · have hFalse : p node = false := by simpa using hNode
        simp only [hFalse, Bool.not_false, if_true, partsOf_cons, List.count_append]
        simp only [Bool.false_eq_true, if_false]
        omega

/-! ## Elements and texts among the parts -/

/-- The name and the attributes of an element. -/
def Element.tag (e : Element) : String × List Attribute := (e.name, e.attributes)

def Part.tag? : Part → Option (String × List Attribute)
  | .tag name attributes => some (name, attributes)
  | .text _ => none
  | .comment _ => none

/-- The text that a part is, unless nothing of it can be seen. -/
def Part.visibleText? : Part → Option String
  | .tag .. => none
  | .text t => if isAllBlank t then none else some t
  | .comment _ => none

/-- The texts in a list of nodes that are not blank, in document order. -/
def visibleTextsOf (nodes : List Node) : List String :=
  (partsOf nodes).filterMap Part.visibleText?

mutual
private theorem node_filterMap_tag? :
    ∀ node : Node, node.parts.filterMap Part.tag? = node.elements.map Element.tag
  | .element name attributes children => by
      have hInside := filterMap_tag? children
      show (name, attributes) :: (partsOf children).filterMap Part.tag? = _
      rw [hInside, elements_element, List.map_cons, Element.tag]
  | .text _ => rfl
  | .comment _ => rfl
/-- The tags among the parts are those of the elements. -/
theorem filterMap_tag? :
    ∀ nodes : List Node, (partsOf nodes).filterMap Part.tag? = (elementsOf nodes).map Element.tag
  | [] => rfl
  | node :: rest => by
      rw [partsOf_cons, List.filterMap_append, node_filterMap_tag? node, filterMap_tag? rest,
        elementsOf_cons, List.map_append]
end

/-- What is no content is neither an element nor a text that can be seen. -/
theorem partsOf_of_not_isContent {nodes : List Node} (h : ∀ n ∈ nodes, n.isContent = false) :
    (partsOf nodes).filterMap Part.tag? = [] ∧ visibleTextsOf nodes = [] := by
  induction nodes with
  | nil => exact ⟨rfl, rfl⟩
  | cons node rest ih =>
      rw [List.forall_mem_cons] at h
      obtain ⟨hTags, hTexts⟩ := ih h.2
      have hNode := h.1
      cases node with
      | element name attributes children => simp [Node.isContent] at hNode
      | text t =>
          have hBlank : isAllBlank t = true := by simpa [Node.isContent] using hNode
          constructor
          · simpa [Node.parts, Part.tag?] using hTags
          · simpa [visibleTextsOf, Node.parts, Part.visibleText?, hBlank] using hTexts
      | comment t =>
          constructor
          · simpa [Node.parts, Part.tag?] using hTags
          · simpa [visibleTextsOf, Node.parts, Part.visibleText?] using hTexts

/-! ## The steps of normalising -/

/-- The nodes in front of the first head; none if there is no head. -/
def inFrontOfHead (children : List Node) : List Node :=
  match breakAt? "head" children with
  | some (before, _, _) => before
  | none => []

/-- The nodes that are no content, and so may be dropped where they are loose. -/
def idle (nodes : List Node) : List Node := nodes.filter (!·.isContent)

theorem count_partsOf_content (part : Part) (nodes : List Node) :
    (partsOf (nodes.filter Node.isContent)).count part + (partsOf (idle nodes)).count part =
      (partsOf nodes).count part :=
  count_partsOf_filter Node.isContent part nodes

/-- The tags of elements that have no attributes. -/
def bareTags (names : List String) : List Part := names.map (.tag · [])

/-- A head is put in where there is none, and nothing else happens. -/
theorem exists_perm_ensureHead (html : Element) :
    ∃ added, List.Sublist added ["head"] ∧
      (ensureHead html).parts.Perm (bareTags added ++ html.parts) ∧
      inFrontOfHead (ensureHead html).children = inFrontOfHead html.children := by
  cases h : html.hasChild "head" with
  | true =>
      rw [ensureHead_of_hasChild h]
      exact ⟨[], List.nil_sublist _, List.Perm.refl _, rfl⟩
  | false =>
      rw [ensureHead_of_not_hasChild h]
      refine ⟨["head"], List.Sublist.refl _, ?_, ?_⟩
      · show (Part.tag html.name html.attributes :: Part.tag "head" [] :: partsOf html.children).Perm
          (Part.tag "head" [] :: Part.tag html.name html.attributes :: partsOf html.children)
        exact List.Perm.swap ..
      · have hNew : breakAt? "head" (html.prepend [.element "head" [] []]).children =
            some ([], ⟨"head", [], []⟩, html.children) :=
          breakAt?_eq_some_iff.mpr ⟨rfl, rfl, by simp⟩
        rw [inFrontOfHead, hNew, inFrontOfHead, hasChild_eq_false_iff.mp h]

/-- Hoisting takes out idle nodes in front of the head, and nothing else. -/
theorem exists_perm_hoistIntoHead (html : Element) :
    ∃ dropped, List.Sublist dropped (idle (inFrontOfHead html.children)) ∧
      ((hoistIntoHead html).parts ++ partsOf dropped).Perm html.parts := by
  cases h : breakAt? "head" html.children with
  | none =>
      have hSame : hoistIntoHead html = html := by rw [hoistIntoHead, h]
      rw [hSame]
      exact ⟨[], List.nil_sublist _, by simp⟩
  | some found =>
      obtain ⟨before, head, after⟩ := found
      have hBefore : inFrontOfHead html.children = before := by rw [inFrontOfHead, h]
      rw [hBefore]
      by_cases hAny : before.any Node.isElement = true
      · refine ⟨idle before, List.Sublist.refl _, ?_⟩
        have hHoisted : hoistIntoHead html =
            { html with
              children := (head.prepend (before.filter Node.isContent)).toNode :: after } := by
          rw [hoistIntoHead, h]
          exact if_pos hAny
        have hChildren := (breakAt?_eq_some_iff.mp h).1
        rw [hHoisted, List.perm_iff_count]
        intro part
        have hBoth := count_partsOf_content part before
        simp only [Element.parts, hChildren, Element.prepend, partsOf_cons, partsOf_append,
          parts_toNode, List.count_append, List.count_cons]
        omega
      · have hSame : hoistIntoHead html = html := by
          rw [hoistIntoHead, h]
          exact if_neg hAny
        rw [hSame]
        exact ⟨[], List.nil_sublist _, by simp⟩

/-- Nodes that are put into a child come in, whatever the child is. -/
theorem perm_changeChild {html : Element} {name : String} (h : html.hasChild name = true)
    {change : Element → Element} {nodes : List Node}
    (hChange : ∀ e : Element, (change e).parts.Perm (partsOf nodes ++ e.parts)) :
    (html.changeChild name change).parts.Perm (partsOf nodes ++ html.parts) := by
  obtain ⟨before, child, after, hBreak⟩ := hasChild_eq_true_iff.mp h
  have hChildren := (breakAt?_eq_some_iff.mp hBreak).1
  rw [List.perm_iff_count]
  intro part
  have hChild := (hChange child).count_eq part
  have hChanged : (html.changeChild name change).parts =
      .tag html.name html.attributes :: partsOf (before ++ (change child).toNode :: after) := by
    rw [Element.parts, Element.changeChild, changeFirst_of_breakAt? hBreak]
  rw [hChanged, Element.parts, hChildren]
  simp only [partsOf_append, partsOf_cons, parts_toNode, List.count_append, List.count_cons]
    at hChild ⊢
  omega

theorem perm_prepend (nodes : List Node) (e : Element) :
    (e.prepend nodes).parts.Perm (partsOf nodes ++ e.parts) := by
  rw [List.perm_iff_count]
  intro part
  simp only [Element.prepend, Element.parts, partsOf_append, List.count_append, List.count_cons]
  omega

theorem perm_append (nodes : List Node) (e : Element) :
    (e.append nodes).parts.Perm (partsOf nodes ++ e.parts) := by
  rw [List.perm_iff_count]
  intro part
  simp only [Element.append, Element.parts, partsOf_append, List.count_append, List.count_cons]
  omega

/-- Nodes that are put at the end come in, with a body and without one. -/
theorem perm_appendToBody (html : Element) (nodes : List Node) :
    (appendToBody html nodes).parts.Perm (partsOf nodes ++ html.parts) := by
  unfold appendToBody
  split
  · next hBody => exact perm_changeChild hBody (perm_append nodes)
  · exact perm_append nodes html

/-! ## The root of a page -/

/-- The nodes outside the `html` element, or in front of its head. -/
def looseNodes (nodes : List Node) : List Node :=
  match breakAt? "html" nodes with
  | some (before, html, after) => before ++ after ++ inFrontOfHead html.children
  | none => nodes

theorem inFrontOfHead_sublist (children : List Node) :
    (inFrontOfHead children).Sublist children := by
  unfold inFrontOfHead
  split
  · next before head after h =>
      rw [(breakAt?_eq_some_iff.mp h).1]
      exact List.sublist_append_left _ _
  · exact List.nil_sublist _

/-- A page around nodes with no `html` element among them. -/
theorem exists_perm_wrapInHtml (nodes : List Node) :
    ∃ added dropped, List.Sublist added ["head", "body"] ∧ List.Sublist dropped (idle nodes) ∧
      ((ensureHead (wrapInHtml nodes)).parts ++ partsOf dropped).Perm
        (bareTags ("html" :: added) ++ partsOf nodes) := by
  unfold wrapInHtml
  split
  · -- hoisting has nothing left to drop
    obtain ⟨dropped, hDropped, hHoisted⟩ :=
      exists_perm_hoistIntoHead ⟨"html", [], nodes.filter Node.isContent⟩
    have hContent : idle (nodes.filter Node.isContent) = [] := by simp [idle]
    have hNone : dropped = [] := by
      have hSub := (inFrontOfHead_sublist (nodes.filter Node.isContent)).filter (!·.isContent)
      exact List.sublist_nil.mp (hContent ▸ hDropped.trans hSub)
    subst hNone
    obtain ⟨added, hAdded, hHead, -⟩ :=
      exists_perm_ensureHead (hoistIntoHead ⟨"html", [], nodes.filter Node.isContent⟩)
    refine ⟨added, idle nodes, hAdded.trans (by simp), List.Sublist.refl _, ?_⟩
    rw [List.perm_iff_count]
    intro part
    have hHead := hHead.count_eq part
    have hHoisted := hHoisted.count_eq part
    have hBoth := count_partsOf_content part nodes
    simp only [Element.parts, bareTags, List.map_cons, partsOf_nil, List.append_nil,
      List.count_append, List.count_cons] at hHead hHoisted hBoth ⊢
    omega
  · refine ⟨["head", "body"], idle (nodes.takeWhile Node.isHeadOnly), List.Sublist.refl _,
      (List.takeWhile_sublist _).filter _, ?_⟩
    rw [ensureHead_of_hasChild rfl, List.perm_iff_count]
    intro part
    have hBoth := count_partsOf_content part (nodes.takeWhile Node.isHeadOnly)
    have hAll : (partsOf nodes).count part =
        (partsOf (nodes.takeWhile Node.isHeadOnly)).count part +
          (partsOf (nodes.dropWhile Node.isHeadOnly)).count part := by
      rw [← List.count_append, ← partsOf_append, List.takeWhile_append_dropWhile]
    simp only [Element.parts, Node.parts, bareTags, List.map_cons, List.map_nil, partsOf_cons,
      partsOf_nil, List.append_nil, List.count_append, List.count_cons, List.count_nil]
    omega

/-- **What a page consists of.**  At most an `html`, a head and a body come in, and only loose
nodes that are no content go. -/
theorem exists_perm_parts (nodes : List Node) :
    ∃ added dropped, List.Sublist added ["html", "head", "body"] ∧
      List.Sublist dropped (idle (looseNodes nodes)) ∧
        ((normalize nodes).parts ++ partsOf dropped).Perm (bareTags added ++ partsOf nodes) := by
  cases hFound : breakAt? "html" nodes with
  | none =>
      obtain ⟨added, dropped, hAdded, hDropped, hPerm⟩ := exists_perm_wrapInHtml nodes
      refine ⟨"html" :: added, dropped, hAdded.cons_cons "html", ?_, ?_⟩
      · rw [looseNodes, hFound]
        exact hDropped
      · rw [normalize, hFound]
        exact hPerm
  | some found =>
      obtain ⟨before, html, after⟩ := found
      obtain ⟨added, hAdded, hHead, hSameFront⟩ := exists_perm_ensureHead html
      obtain ⟨dropped, hDropped, hHoisted⟩ := exists_perm_hoistIntoHead (ensureHead html)
      rw [hSameFront] at hDropped
      have hHasHead : (hoistIntoHead (ensureHead html)).HeadFirst :=
        headFirst_hoistIntoHead (hasChild_ensureHead html)
      have hBefore := perm_changeChild hHasHead.hasChild (perm_prepend (before.filter Node.isContent))
      have hAfter := perm_appendToBody ((hoistIntoHead (ensureHead html)).changeChild "head"
        (·.prepend (before.filter Node.isContent))) (after.filter Node.isContent)
      refine ⟨added, idle before ++ idle after ++ dropped, hAdded.trans (by simp), ?_, ?_⟩
      · rw [looseNodes, hFound]
        simp only [idle, List.filter_append]
        exact List.Sublist.append_left hDropped _
      · have hDone : normalize nodes = appendToBody ((hoistIntoHead (ensureHead html)).changeChild
            "head" (·.prepend (before.filter Node.isContent))) (after.filter Node.isContent) := by
          rw [normalize, hFound]
          exact ensureHead_of_hasChild ((hHasHead.changeHead _).appendToBody _).hasChild
        have hNodes := (breakAt?_eq_some_iff.mp hFound).1
        rw [hDone, hNodes, List.perm_iff_count]
        intro part
        have hHead := hHead.count_eq part
        have hHoisted := hHoisted.count_eq part
        have hBefore := hBefore.count_eq part
        have hAfter := hAfter.count_eq part
        have hEarly := count_partsOf_content part before
        have hLate := count_partsOf_content part after
        simp only [partsOf_append, partsOf_cons, parts_toNode, List.count_append]
          at hHead hHoisted hBefore hAfter ⊢
        omega

/-- **Normalising keeps what a page consists of.**  The parts that the root has and the ones that
were dropped are those of the nodes and those of at most an `html`, a head and a body; what was
dropped are comments and blank texts that stood loose.  So the elements stay as they are, up to
the ones that came in, and every text that is not blank stays as often as it was there. -/
theorem normalize_keepsContents (nodes : List Node) :
    ∃ added dropped, List.Sublist added ["html", "head", "body"] ∧
      List.Sublist dropped ((looseNodes nodes).filter (!·.isContent)) ∧
      ((normalize nodes).toNode.parts ++ partsOf dropped).Perm
        (added.map (Part.tag · []) ++ partsOf nodes) ∧
      ((normalize nodes).toNode.elements.map Element.tag).Perm
        (added.map (·, []) ++ (elementsOf nodes).map Element.tag) ∧
      (visibleTextsOf [(normalize nodes).toNode]).Perm (visibleTextsOf nodes) := by
  obtain ⟨added, dropped, hAdded, hDropped, hPerm⟩ := exists_perm_parts nodes
  have hIdle : ∀ n ∈ dropped, n.isContent = false := by
    intro n hn
    have hMem := List.of_mem_filter (hDropped.subset hn)
    simpa using hMem
  obtain ⟨hNoTags, hNoTexts⟩ := partsOf_of_not_isContent hIdle
  refine ⟨added, dropped, hAdded, hDropped, hPerm, ?_, ?_⟩
  · have hTags := hPerm.filterMap Part.tag?
    have hAddedTags : (bareTags added).filterMap Part.tag? = added.map (·, []) := by
      rw [bareTags, List.filterMap_map]
      exact congrFun List.filterMap_eq_map added
    rw [List.filterMap_append, hNoTags, List.append_nil, List.filterMap_append, hAddedTags,
      filterMap_tag?] at hTags
    have hRoot := filterMap_tag? [(normalize nodes).toNode]
    simp only [partsOf_cons, partsOf_nil, List.append_nil, parts_toNode, elementsOf_cons,
      elementsOf_nil] at hRoot
    rwa [hRoot] at hTags
  · have hTexts := hPerm.filterMap Part.visibleText?
    have hAddedTexts : (bareTags added).filterMap Part.visibleText? = [] := by
      rw [bareTags, List.filterMap_map]
      exact List.filterMap_eq_nil_iff.mpr fun _ _ => rfl
    rw [List.filterMap_append, List.filterMap_append, hAddedTexts, List.nil_append] at hTexts
    simp only [visibleTextsOf] at hNoTexts
    rw [hNoTexts, List.append_nil] at hTexts
    simpa [visibleTextsOf] using hTexts

end PagePreview.Markup
