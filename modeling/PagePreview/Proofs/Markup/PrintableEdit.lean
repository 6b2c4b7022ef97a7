import PagePreview.Proofs.Markup.Editing
import PagePreview.Proofs.Markup.RoundTrip

/-!
# Edits that keep a page printable

Editing elements of raw text leaves everything that `Element.Printable` asks
of the other elements as it was: which texts they hold and where
(`textsPrintable_editEach`), and which elements stand below them
(`elementsNamed_editEach_of_ne`).  The edited elements themselves are printable
as soon as they are well formed and their attributes hold no double quote.

So `Document.Printable.editDescendants` asks nothing else of an edit, and what
it makes is read back from its text.
-/

namespace PagePreview.Markup

/-- Whether texts stand apart depends on where they stand. -/
theorem textsApart_congr {others nodes : List Node}
    (h : others.map Node.isText = nodes.map Node.isText) : textsApart others = textsApart nodes := by
  induction nodes generalizing others with
  | nil => rw [List.map_nil, List.map_eq_nil_iff] at h; rw [h]
  | cons node nodes ih =>
      obtain ⟨other, others, rfl, hFirst, hRest⟩ := List.map_eq_cons_iff.mp h
      have hHead : others.head?.any Node.isText = nodes.head?.any Node.isText := by
        have hHeads := congrArg (fun texts => texts.head?.any id) hRest
        simpa [List.head?_map, Option.any_map] using hHeads
      simp only [textsApart, hFirst, hHead, ih hRest]

section Shape

variable (name : String) (edit : Nat → Element → Edit)

@[simp] theorem isText_editEach (node : Node) (next : Nat) :
    (node.editEach name edit next).1.isText = node.isText := by
  cases node with
  | element n attributes children =>
      obtain ⟨_, _, hEdited⟩ := exists_editEach_element name edit n attributes children next
      rw [hEdited]
      rfl
  | text _ => rfl
  | comment _ => rfl

@[simp] theorem isPrintableText_editEach (node : Node) (next : Nat) :
    (node.editEach name edit next).1.isPrintableText = node.isPrintableText := by
  cases node with
  | element n attributes children =>
      obtain ⟨_, _, hEdited⟩ := exists_editEach_element name edit n attributes children next
      rw [hEdited]
      rfl
  | text _ => rfl
  | comment _ => rfl

theorem map_isText_editEach (nodes : List Node) (next : Nat) :
    (editEach name edit next nodes).1.map Node.isText = nodes.map Node.isText := by
  induction nodes generalizing next with
  | nil => rfl
  | cons node nodes ih => simp [editEach, ih]

/-- An edit of elements leaves the texts around them alone. -/
theorem textsPrintable_editEach {nodes : List Node} (h : TextsPrintable nodes) (next : Nat) :
    TextsPrintable (editEach name edit next nodes).1 := by
  refine ⟨?_, (textsApart_congr (map_isText_editEach name edit nodes next)).trans h.apart⟩
  have hInert := h.inert
  clear h
  induction nodes generalizing next with
  | nil => simp [editEach]
  | cons node nodes ih =>
      obtain ⟨hNode, hRest⟩ := List.forall_mem_cons.mp hInert
      refine List.forall_mem_cons.mpr ⟨?_, ih _ hRest⟩
      rw [isPrintableText_editEach, hNode]

variable {name} {other : String}

mutual
private theorem node_elementsNamed_editEach_of_ne (hName : other ≠ name) :
    ∀ (node : Node) (next : Nat), node.elementsNamed other = [] →
      (node.editEach name edit next).1.elementsNamed other = []
  | .element n attributes children, next, h => by
      have hn : ¬ n = other := by
        rintro rfl
        simp [elementsNamed_element_self] at h
      rw [elementsNamed_element_of_ne hn] at h
      unfold Node.editEach
      dsimp only
      split
      · split
        · rw [elementsNamed_element_of_ne hn, elementsNamed_textChildren]
        · rw [elementsNamed_element_of_ne hn]
          exact elementsNamed_editEach_of_ne hName children _ h
      · rw [elementsNamed_element_of_ne hn]
        exact elementsNamed_editEach_of_ne hName children _ h
  | .text _, _, h => h
  | .comment _, _, h => h
/-- An edit brings in no elements of another name. -/
theorem elementsNamed_editEach_of_ne (hName : other ≠ name) :
    ∀ (nodes : List Node) (next : Nat), elementsNamed other nodes = [] →
      elementsNamed other (editEach name edit next nodes).1 = []
  | [], _, _ => rfl
  | node :: rest, next, h => by
      rw [elementsNamed_cons, List.append_eq_nil_iff] at h
      rw [editEach, elementsNamed_cons, List.append_eq_nil_iff]
      exact ⟨node_elementsNamed_editEach_of_ne hName node next h.1,
        elementsNamed_editEach_of_ne hName rest _ h.2⟩
end

end Shape

section Printable

variable {name : String} {edit : Nat → Element → Edit}

/-- A well-formed element of raw text is printable if its attributes are, whatever it holds. -/
theorem Element.Printable.of_isRawText {e : Element} (h : e.WellFormed)
    (hRaw : isRawText e.name = true) (hQuotes : QuoteFree e.attributes) : e.Printable where
  wellFormed := h
  quoteFree := hQuotes
  texts hOther := absurd hOther (by simp [hRaw])
  head hHead := absurd (hHead ▸ hRaw) (by decide)

mutual
private theorem node_printable_editEach (hRaw : isRawText name = true)
    (hEdit : ∀ i (e : Element), e.name = name → e.toNode.WellFormed →
      (e.edited (edit i e)).toNode.WellFormed)
    (hQuotes : ∀ i (e : Element), QuoteFree e.attributes → QuoteFree (edit i e).attributes) :
    ∀ (node : Node) (next : Nat), node.WellFormed → (∀ e ∈ node.elements, e.Printable) →
      ∀ e ∈ (node.editEach name edit next).1.elements, e.Printable
  | .element n attributes children, next, h, hElements => by
      obtain ⟨hElement, hBelow⟩ := List.forall_mem_cons.mp hElements
      by_cases hn : n = name
      · subst hn
        have hNone := elementsNamed_children_of_wellFormed h (Or.inl hRaw) n
        have hEdited := (hEdit next ⟨n, attributes, children⟩ rfl h).element
        rw [editEach_self edit hNone, elements_toNode,
          elementsOf_of_isRawContent (hEdited.raw hRaw)]
        exact List.forall_mem_singleton.mpr
          (.of_isRawText hEdited hRaw (hQuotes next _ hElement.quoteFree))
      · rw [editEach_of_ne hn]
        by_cases hClosed : isRawText n = true ∨ isVoid n = true
        · rw [editEach_of_nil edit children next
            (elementsNamed_children_of_wellFormed h hClosed name)]
          exact hElements
        · have hBody : "body" ≠ name := ne_of_isRawText hRaw (by decide)
          have hEdited := wellFormed_editEach hRaw hEdit children next h.children
          rw [not_or] at hClosed
          refine List.forall_mem_cons.mpr ⟨⟨?_, hElement.quoteFree, fun hOther => ?_, fun hHead =>
            elementsNamed_editEach_of_ne edit hBody children next (hElement.head hHead)⟩,
            printable_editEach hRaw hEdit hQuotes children next h.children hBelow⟩
          · exact (wellFormed_element h.element.named h.element.attributes
              (fun hVoid => absurd hVoid hClosed.2) (fun hIsRaw => absurd hIsRaw hClosed.1)
              hEdited).element
          · exact textsPrintable_editEach name edit (hElement.texts hOther) next
  | .text _, _, _, _ => by simp [Node.editEach]
  | .comment _, _, _, _ => by simp [Node.editEach]
/-- **Editing elements of raw text keeps all elements printable**, if it keeps the edited ones
well formed and their attributes without double quotes. -/
theorem printable_editEach (hRaw : isRawText name = true)
    (hEdit : ∀ i (e : Element), e.name = name → e.toNode.WellFormed →
      (e.edited (edit i e)).toNode.WellFormed)
    (hQuotes : ∀ i (e : Element), QuoteFree e.attributes → QuoteFree (edit i e).attributes) :
    ∀ (nodes : List Node) (next : Nat), (∀ n ∈ nodes, n.WellFormed) →
      (∀ e ∈ elementsOf nodes, e.Printable) →
      ∀ e ∈ elementsOf (editEach name edit next nodes).1, e.Printable
  | [], _, _, _ => by simp [editEach]
  | node :: rest, next, h, hElements => by
      obtain ⟨hNode, hRest⟩ := List.forall_mem_cons.mp h
      rw [elementsOf_cons, List.forall_mem_append] at hElements
      rw [editEach, elementsOf_cons, List.forall_mem_append]
      exact ⟨node_printable_editEach hRaw hEdit hQuotes node next hNode hElements.1,
        printable_editEach hRaw hEdit hQuotes rest _ hRest hElements.2⟩
end

/-- A well-formed element that holds no body may be put at the front of a printable head. -/
theorem Element.Printable.prepend {head e : Element} (h : head.Printable)
    (hHead : head.name = "head") (hWellFormed : head.toNode.WellFormed)
    (hNode : e.toNode.WellFormed) (hBody : e.toNode.elementsNamed "body" = []) :
    (head.prepend [e.toNode]).toNode.WellFormed ∧ (head.prepend [e.toNode]).Printable := by
  have hTexts := h.texts (by rw [hHead]; decide)
  have hNew : (head.prepend [e.toNode]).toNode.WellFormed :=
    wellFormed_prepend hWellFormed (by rw [hHead]; decide) (by rw [hHead]; decide)
      (List.forall_mem_singleton.mpr hNode)
  refine ⟨hNew, hNew.element, h.quoteFree, fun _ => ⟨?_, hTexts.apart⟩, fun _ => ?_⟩
  · exact List.forall_mem_cons.mpr ⟨rfl, hTexts.inert⟩
  · change elementsNamed "body" (e.toNode :: head.children) = []
    rw [elementsNamed_cons, hBody, h.head hHead, List.nil_append]

namespace Document.Printable

variable {d : Document}

theorem editDescendants (h : d.Printable) (hRaw : isRawText name = true)
    (hEdit : ∀ i (e : Element), e.name = name → e.toNode.WellFormed →
      (e.edited (edit i e)).toNode.WellFormed)
    (hQuotes : ∀ i (e : Element), QuoteFree e.attributes → QuoteFree (edit i e).attributes) :
    ({ d with root := d.root.editDescendants name edit } : Document).Printable := by
  have hHtml : ¬ d.root.name = name := by
    rw [h.root]
    exact ne_of_isRawText hRaw (by decide)
  have hElements := printable_editEach hRaw hEdit hQuotes [d.root.toNode] 0
    (List.forall_mem_singleton.mpr h.wellFormed) (by simpa using h.elements)
  have hRoot : (editEach name edit 0 [d.root.toNode]).1 =
      [(d.root.editDescendants name edit).toNode] := by
    simp [editEach, Element.toNode, editEach_of_ne hHtml, Element.editDescendants]
  rw [hRoot] at hElements
  exact ⟨h.doctype, by simpa using hElements, h.root,
    h.head.editDescendants (ne_of_isRawText hRaw (by decide)) edit⟩

/-- A printable element that holds no body may be put at the front of the head. -/
theorem prependToHead (h : d.Printable) {before after : List Node} {head e : Element}
    (hChildren : d.root.children = before ++ head.toNode :: after) (hHead : head.name = "head")
    (hBefore : ∀ n ∈ before, n.isElement = false) (hNode : e.toNode.WellFormed)
    (hElements : ∀ x ∈ e.toNode.elements, x.Printable)
    (hBody : e.toNode.elementsNamed "body" = []) :
    ({ d with
      root := { d.root with
        children := before ++ (head.prepend [e.toNode]).toNode :: after } } :
      Document).Printable := by
  obtain ⟨hRoot, hBelow⟩ := List.forall_mem_cons.mp h.elements
  have hNodes := Node.WellFormed.children h.wellFormed
  rw [hChildren, elementsOf_append, elementsOf_cons, elements_toNode] at hBelow
  rw [hChildren] at hNodes
  simp only [List.forall_mem_append, List.forall_mem_cons] at hBelow hNodes
  obtain ⟨hFront, ⟨hIsPrintable, hContent⟩, hBehind⟩ := hBelow
  have hNewHead := hIsPrintable.prepend hHead hNodes.2.1 hNode hBody
  -- the root has texts and elements where it had them
  have hNewRoot : Element.Printable ⟨d.root.name, d.root.attributes,
      before ++ (head.prepend [e.toNode]).toNode :: after⟩ := by
    have hTexts := hRoot.texts (by rw [h.root]; decide)
    have hOther : d.root.name ≠ "head" := by rw [h.root]; decide
    rw [hChildren] at hTexts
    refine ⟨?_, hRoot.quoteFree, fun _ => ⟨?_, ?_⟩, fun hName => absurd hName hOther⟩
    · have hVoid : isVoid d.root.name = false := by rw [h.root]; decide
      have hRaw : isRawText d.root.name = false := by rw [h.root]; decide
      have hNew : ∀ n ∈ before ++ (head.prepend [e.toNode]).toNode :: after, n.WellFormed := by
        simp only [List.forall_mem_append, List.forall_mem_cons]
        exact ⟨hNodes.1, hNewHead.1, hNodes.2.2⟩
      exact (h.wellFormed.withChildren hVoid hRaw hNew).element
    · have hInert := hTexts.inert
      simp only [List.forall_mem_append, List.forall_mem_cons] at hInert ⊢
      exact ⟨hInert.1, rfl, hInert.2.2⟩
    · refine (textsApart_congr ?_).trans hTexts.apart
      simp [Element.toNode, Element.prepend, Node.isText]
  refine ⟨h.doctype, ?_, h.root, .of_eq before _ after rfl hHead hBefore⟩
  rw [elements_toNode, elementsOf_append, elementsOf_cons, elements_toNode]
  simp only [List.forall_mem_append, List.forall_mem_cons]
  exact ⟨hNewRoot, hFront, ⟨hNewHead.2, List.forall_mem_append.mpr ⟨hElements, hContent⟩⟩, hBehind⟩

end Document.Printable

end Printable

end PagePreview.Markup
