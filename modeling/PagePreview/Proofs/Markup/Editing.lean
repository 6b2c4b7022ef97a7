import PagePreview.Proofs.Markup.WellFormed

/-!
# Editing the elements of one name

`editEach` changes a tree at the elements of one name.  To say that it does
nothing else, `mask` hides these elements: what is left of a tree after
masking is everything that an edit must not touch, in its place.

* `mask_editEach`: an edit leaves the masked tree alone.
* `elementsNamed_editEach`: on the hidden elements it is a map, and the `i`-th
  element of the document is given the edit number `i`.
* `eq_of_mask_eq`: these two views together determine a tree, so nothing
  escapes them.

All three ask that no element of the name stands inside another one
(`Unnested`), as it is with elements of raw text.

`traverse` is the same pass with a state instead of a number: each element is
handed what the ones before it have left behind.  When the state is the list
of reports so far and an element only looks at its length,
`traverse_eq_editEach` makes the pass the numbered one again.
-/

namespace PagePreview.Markup

/-- No element of the name stands inside another one. -/
def Unnested (name : String) (nodes : List Node) : Prop :=
  ∀ e ∈ elementsNamed name nodes, elementsNamed name e.children = []

theorem unnested_append {name : String} {xs ys : List Node} :
    Unnested name (xs ++ ys) ↔ Unnested name xs ∧ Unnested name ys := by
  simp [Unnested, or_imp, forall_and]

theorem unnested_cons {name : String} {node : Node} {rest : List Node} :
    Unnested name (node :: rest) ↔ Unnested name [node] ∧ Unnested name rest :=
  @unnested_append name [node] rest

theorem elementsNamed_singleton (name : String) (node : Node) :
    elementsNamed name [node] = node.elementsNamed name := by
  simp [elementsNamed]

theorem elementsNamed_cons (name : String) (node : Node) (rest : List Node) :
    elementsNamed name (node :: rest) = node.elementsNamed name ++ elementsNamed name rest := rfl

theorem elementsNamed_element_self (name : String) (attributes : List Attribute)
    (children : List Node) :
    (Node.element name attributes children).elementsNamed name =
      ⟨name, attributes, children⟩ :: elementsNamed name children := by
  simp [Node.elementsNamed]

theorem elementsNamed_element_of_ne {name n : String} (h : ¬ n = name)
    (attributes : List Attribute) (children : List Node) :
    (Node.element n attributes children).elementsNamed name = elementsNamed name children := by
  simp [Node.elementsNamed, h]

/-! ## Hiding the elements of a name -/

mutual
/-- A node in which the elements of that name have lost all but their name. -/
def Node.mask (name : String) : Node → Node
  | .element n attributes children =>
      if n == name then .element n [] [] else .element n attributes (mask name children)
  | .text t => .text t
  | .comment t => .comment t
/-- Nodes in which the elements of that name have lost all but their name. -/
def mask (name : String) : List Node → List Node
  | [] => []
  | node :: rest => node.mask name :: mask name rest
end

mutual
private theorem node_mask_editEach (name : String) (edit : Nat → Element → Edit) :
    ∀ (node : Node) (next : Nat), (node.editEach name edit next).1.mask name = node.mask name
  | .element n attributes children, next => by
      unfold Node.editEach
      by_cases h : n = name
      · simp only [h, beq_self_eq_true, if_true]
        split <;> simp [Node.mask]
      · simp [h, Node.mask, mask_editEach name edit children next]
  | .text _, _ => rfl
  | .comment _, _ => rfl
/-- An edit changes nothing around the elements that it is about. -/
theorem mask_editEach (name : String) (edit : Nat → Element → Edit) :
    ∀ (nodes : List Node) (next : Nat),
      mask name (editEach name edit next nodes).1 = mask name nodes
  | [], _ => rfl
  | node :: rest, next => by
      simp [editEach, mask, node_mask_editEach name edit node next, mask_editEach name edit rest]
end

/-- What holds of an element's content under another name holds of the element. -/
theorem unnested_element_of_ne {name n : String} (h : ¬ n = name) {attributes : List Attribute}
    {children : List Node} :
    Unnested name [.element n attributes children] ↔ Unnested name children := by
  simp [Unnested, elementsNamed_singleton, elementsNamed_element_of_ne h]

theorem unnested_element_self {name : String} {attributes : List Attribute}
    {children : List Node} (h : Unnested name [.element name attributes children]) :
    elementsNamed name children = [] :=
  h ⟨name, attributes, children⟩ (by simp [elementsNamed_singleton, elementsNamed_element_self])

mutual
private theorem node_length_elementsNamed_mask (name : String) :
    ∀ node : Node, Unnested name [node] →
      ((node.mask name).elementsNamed name).length = (node.elementsNamed name).length
  | .element n attributes children, h => by
      by_cases hn : n = name
      · subst hn
        simp [Node.mask, elementsNamed_element_self, unnested_element_self h, elementsNamed]
      · have hChildren := length_elementsNamed_mask name children ((unnested_element_of_ne hn).mp h)
        simpa [Node.mask, hn, elementsNamed_element_of_ne hn] using hChildren
  | .text _, _ => rfl
  | .comment _, _ => rfl
/-- Masking keeps the number of the elements that it hides. -/
theorem length_elementsNamed_mask (name : String) :
    ∀ nodes : List Node, Unnested name nodes →
      (elementsNamed name (mask name nodes)).length = (elementsNamed name nodes).length
  | [], _ => rfl
  | node :: rest, h => by
      obtain ⟨hNode, hRest⟩ := unnested_cons.mp h
      simp [mask, elementsNamed_cons, node_length_elementsNamed_mask name node hNode,
        length_elementsNamed_mask name rest hRest]
end

mutual
private theorem node_eq_of_mask_eq (name : String) :
    ∀ node other : Node, node.mask name = other.mask name →
      node.elementsNamed name = other.elementsNamed name →
      Unnested name [node] → Unnested name [other] → node = other
  | .element n attributes children, other, hMask, hElements, hNode, hOther => by
      cases other with
      | element m otherAttributes otherChildren =>
          by_cases hn : n = name <;> by_cases hm : m = name
          · subst hn hm
            rw [elementsNamed_element_self, elementsNamed_element_self] at hElements
            simp only [List.cons.injEq, Element.mk.injEq] at hElements
            rw [hElements.1.2.1, hElements.1.2.2]
          · subst hn
            simp only [Node.mask, hm, beq_iff_eq, if_true, if_false, Node.element.injEq] at hMask
            exact absurd hMask.1.symm hm
          · subst hm
            simp only [Node.mask, beq_iff_eq, if_true, if_neg hn, Node.element.injEq] at hMask
            exact absurd hMask.1 hn
          · simp only [Node.mask, hn, hm, beq_iff_eq, if_false, Node.element.injEq] at hMask
            obtain ⟨rfl, rfl, hMask⟩ := hMask
            rw [elementsNamed_element_of_ne hn, elementsNamed_element_of_ne hn] at hElements
            rw [eq_of_mask_eq name children otherChildren hMask hElements
              ((unnested_element_of_ne hn).mp hNode) ((unnested_element_of_ne hn).mp hOther)]
      | text _ =>
          simp only [Node.mask] at hMask
          split at hMask <;> simp at hMask
      | comment _ =>
          simp only [Node.mask] at hMask
          split at hMask <;> simp at hMask
  | .text t, other, hMask, _, _, _ => by
      cases other with
      | element m _ _ =>
          simp only [Node.mask] at hMask
          split at hMask <;> simp at hMask
      | text _ => exact hMask
      | comment _ => exact hMask
  | .comment t, other, hMask, _, _, _ => by
      cases other with
      | element m _ _ =>
          simp only [Node.mask] at hMask
          split at hMask <;> simp at hMask
      | text _ => exact hMask
      | comment _ => exact hMask
/-- **A tree is determined by its masked form and the elements that this hides.** -/
theorem eq_of_mask_eq (name : String) :
    ∀ nodes others : List Node, mask name nodes = mask name others →
      elementsNamed name nodes = elementsNamed name others →
      Unnested name nodes → Unnested name others → nodes = others
  | [], others, hMask, _, _, _ => by
      cases others with
      | nil => rfl
      | cons _ _ => simp [mask] at hMask
  | node :: rest, others, hMask, hElements, hNodes, hOthers => by
      cases others with
      | nil => simp [mask] at hMask
      | cons other others =>
          simp only [mask, List.cons.injEq] at hMask
          obtain ⟨hNode, hRest⟩ := unnested_cons.mp hNodes
          obtain ⟨hOther, hOthers⟩ := unnested_cons.mp hOthers
          have hLength : (node.elementsNamed name).length = (other.elementsNamed name).length := by
            rw [← node_length_elementsNamed_mask name node hNode, hMask.1,
              node_length_elementsNamed_mask name other hOther]
          rw [elementsNamed_cons, elementsNamed_cons] at hElements
          obtain ⟨hFirst, hLater⟩ := List.append_inj hElements hLength
          rw [node_eq_of_mask_eq name node other hMask.1 hFirst hNode hOther,
            eq_of_mask_eq name rest others hMask.2 hLater hRest hOthers]
end

/-! ## An edit is a map -/

/-- An element after an edit. -/
def Element.edited (e : Element) (edit : Edit) : Element :=
  { e with
    attributes := edit.attributes
    children := match edit.text with
      | some text => textChildren text
      | none => e.children }

mutual
private theorem node_editEach_of_nil {name : String} (edit : Nat → Element → Edit) :
    ∀ (node : Node) (next : Nat), node.elementsNamed name = [] →
      node.editEach name edit next = (node, next)
  | .element n attributes children, next, h => by
      by_cases hn : n = name
      · simp [hn, elementsNamed_element_self] at h
      · rw [elementsNamed_element_of_ne hn] at h
        simp [Node.editEach, hn, editEach_of_nil edit children next h]
  | .text _, _, _ => rfl
  | .comment _, _, _ => rfl
/-- Without elements of the name an edit has nothing to do. -/
theorem editEach_of_nil {name : String} (edit : Nat → Element → Edit) :
    ∀ (nodes : List Node) (next : Nat), elementsNamed name nodes = [] →
      editEach name edit next nodes = (nodes, next)
  | [], _, _ => rfl
  | node :: rest, next, h => by
      rw [elementsNamed_cons, List.append_eq_nil_iff] at h
      simp [editEach, node_editEach_of_nil edit node next h.1, editEach_of_nil edit rest next h.2]
end

mutual
private theorem node_elementsNamed_editEach {name : String} (edit : Nat → Element → Edit) :
    ∀ (node : Node) (next : Nat), Unnested name [node] →
      (node.editEach name edit next).1.elementsNamed name =
        (node.elementsNamed name).mapIdx (fun i e => e.edited (edit (next + i) e)) ∧
      (node.editEach name edit next).2 = next + (node.elementsNamed name).length
  | .element n attributes children, next, h => by
      by_cases hn : n = name
      · subst hn
        have hNil := unnested_element_self h
        unfold Node.editEach
        simp only [beq_self_eq_true, if_true, elementsNamed_element_self, hNil]
        split
        · next text hText =>
            simp [elementsNamed_element_self, Element.edited, hText]
        · next hText =>
            simp [editEach_of_nil edit children (next + 1) hNil, elementsNamed_element_self,
              Element.edited, hText, hNil]
      · have hChildren := elementsNamed_editEach edit children next
          ((unnested_element_of_ne hn).mp h)
        simpa [Node.editEach, hn, elementsNamed_element_of_ne hn] using hChildren
  | .text _, _, _ => ⟨rfl, rfl⟩
  | .comment _, _, _ => ⟨rfl, rfl⟩
/-- **An edit maps the elements of the name**, each by its number, and counts them. -/
theorem elementsNamed_editEach {name : String} (edit : Nat → Element → Edit) :
    ∀ (nodes : List Node) (next : Nat), Unnested name nodes →
      elementsNamed name (editEach name edit next nodes).1 =
        (elementsNamed name nodes).mapIdx (fun i e => e.edited (edit (next + i) e)) ∧
      (editEach name edit next nodes).2 = next + (elementsNamed name nodes).length
  | [], _, _ => ⟨rfl, rfl⟩
  | node :: rest, next, h => by
      obtain ⟨hNode, hRest⟩ := unnested_cons.mp h
      obtain ⟨hNodeMap, hNodeCount⟩ := node_elementsNamed_editEach edit node next hNode
      obtain ⟨hRestMap, hRestCount⟩ := elementsNamed_editEach edit rest
        (node.editEach name edit next).2 hRest
      constructor
      · simp only [editEach, elementsNamed_cons, List.mapIdx_append]
        rw [hNodeMap, hRestMap, hNodeCount]
        simp only [Nat.add_assoc, Nat.add_comm (node.elementsNamed name).length]
      · simp only [editEach, elementsNamed_cons, List.length_append]
        rw [hRestCount, hNodeCount, Nat.add_assoc]
end

/-- Editing the scripts of a root, or anything else but its head, leaves the
head in front. -/
theorem Element.HeadFirst.editDescendants {html : Element} (h : html.HeadFirst) {name : String}
    (hName : "head" ≠ name) (edit : Nat → Element → Edit) :
    (html.editDescendants name edit).HeadFirst := by
  obtain ⟨before, head, after, hBreak, hBefore⟩ := h
  obtain ⟨hEq, hHead, -⟩ := breakAt?_eq_some_iff.mp hBreak
  have hFront : ∀ (nodes : List Node) (next : Nat), elementsNamed name nodes = [] →
      ∀ rest, (editEach name edit next (nodes ++ rest)).1 =
        nodes ++ (editEach name edit next rest).1 := by
    intro nodes next hNil rest
    induction nodes with
    | nil => rfl
    | cons node nodes ih =>
        rw [elementsNamed_cons, List.append_eq_nil_iff] at hNil
        simp [editEach, node_editEach_of_nil edit node next hNil.1, ih hNil.2]
  have hNil : elementsNamed name before = [] := by
    rw [elementsNamed_eq_filter, elementsOf_eq_nil hBefore, List.filter_nil]
  have hOther : ¬ head.name = name := hHead ▸ hName
  let content := editEach name edit 0 head.children
  refine Element.HeadFirst.of_eq before { head with children := content.1 }
    (editEach name edit content.2 after).1 ?_ hHead hBefore
  simp [Element.editDescendants, hEq, hFront before 0 hNil, editEach, Element.toNode,
    Node.editEach, hOther, content]

/-- An element with no other one of its name in it is edited as a whole. -/
theorem editEach_self {name : String} (edit : Nat → Element → Edit) {attributes : List Attribute}
    {children : List Node} (h : elementsNamed name children = []) (next : Nat) :
    (Node.element name attributes children).editEach name edit next =
      (((⟨name, attributes, children⟩ : Element).edited
        (edit next ⟨name, attributes, children⟩)).toNode, next + 1) := by
  unfold Node.editEach
  simp only [beq_self_eq_true, if_true]
  split
  · next text hText => simp [Element.edited, Element.toNode, hText]
  · next hText =>
      simp [editEach_of_nil edit children (next + 1) h, Element.edited, Element.toNode, hText]

theorem editEach_of_ne {name n : String} (h : ¬ n = name) (edit : Nat → Element → Edit)
    (attributes : List Attribute) (children : List Node) (next : Nat) :
    (Node.element n attributes children).editEach name edit next =
      (.element n attributes (editEach name edit next children).1,
        (editEach name edit next children).2) := by
  simp [Node.editEach, h]

/-- An edited element is an element of the same name. -/
theorem exists_editEach_element (name : String) (edit : Nat → Element → Edit) (n : String)
    (attributes : List Attribute) (children : List Node) (next : Nat) :
    ∃ newAttributes newChildren,
      ((Node.element n attributes children).editEach name edit next).1 =
        .element n newAttributes newChildren := by
  unfold Node.editEach
  dsimp only
  split
  · split <;> exact ⟨_, _, rfl⟩
  · exact ⟨_, _, rfl⟩

/-- Raw text and void elements hold nothing to edit. -/
theorem elementsNamed_children_of_wellFormed {n : String} {attributes : List Attribute}
    {children : List Node} (h : (Node.element n attributes children).WellFormed)
    (hClosed : isRawText n = true ∨ isVoid n = true) (name : String) :
    elementsNamed name children = [] := by
  obtain hRaw | hVoid := hClosed
  · exact elementsNamed_of_isRawContent (h.element.raw hRaw) name
  · have hNil : children = [] := h.element.void hVoid
    rw [hNil]
    rfl

section WellFormed

variable {name : String} {edit : Nat → Element → Edit}

mutual
private theorem node_wellFormed_editEach (hRaw : isRawText name = true)
    (hEdit : ∀ i (e : Element), e.name = name → e.toNode.WellFormed →
      (e.edited (edit i e)).toNode.WellFormed) :
    ∀ (node : Node) (next : Nat), node.WellFormed → (node.editEach name edit next).1.WellFormed
  | .element n attributes children, next, h => by
      by_cases hn : n = name
      · subst hn
        rw [editEach_self edit (elementsNamed_children_of_wellFormed h (Or.inl hRaw) n)]
        exact hEdit next ⟨n, attributes, children⟩ rfl h
      · rw [editEach_of_ne hn]
        by_cases hClosed : isRawText n = true ∨ isVoid n = true
        · rw [editEach_of_nil edit children next
            (elementsNamed_children_of_wellFormed h hClosed name)]
          exact h
        · rw [not_or] at hClosed
          exact wellFormed_element h.element.named h.element.attributes
            (fun hVoid => absurd hVoid hClosed.2) (fun hIsRaw => absurd hIsRaw hClosed.1)
            (wellFormed_editEach hRaw hEdit children next h.children)
  | .text _, _, h => h
  | .comment _, _, h => h
/-- **Editing elements of raw text keeps a tree well formed**, if it keeps each of them so. -/
theorem wellFormed_editEach (hRaw : isRawText name = true)
    (hEdit : ∀ i (e : Element), e.name = name → e.toNode.WellFormed →
      (e.edited (edit i e)).toNode.WellFormed) :
    ∀ (nodes : List Node) (next : Nat), (∀ n ∈ nodes, n.WellFormed) →
      ∀ n ∈ (editEach name edit next nodes).1, n.WellFormed
  | [], _, _ => by simp [editEach]
  | node :: rest, next, h => by
      obtain ⟨hNode, hRest⟩ := List.forall_mem_cons.mp h
      exact List.forall_mem_cons.mpr ⟨node_wellFormed_editEach hRaw hEdit node next hNode,
        wellFormed_editEach hRaw hEdit rest _ hRest⟩
end

end WellFormed

/-! ## The same pass with a state -/

section Traverse

variable {σ : Type}

mutual
/-- Edits the elements of a name in a node; each one sees the state that the
ones before it have left. -/
def Node.traverse (name : String) (visit : σ → Element → Edit × σ) (state : σ) :
    Node → Node × σ
  | .element n attributes children =>
      if n == name then
        let (e, state) := visit state ⟨n, attributes, children⟩
        match e.text with
        | some text => (.element n e.attributes (textChildren text), state)
        | none =>
            let (children, state) := traverse name visit state children
            (.element n e.attributes children, state)
      else
        let (children, state) := traverse name visit state children
        (.element n attributes children, state)
  | .text t => (.text t, state)
  | .comment t => (.comment t, state)
/-- Edits the elements of a name in a list of nodes, in document order, with a state. -/
def traverse (name : String) (visit : σ → Element → Edit × σ) (state : σ) :
    List Node → List Node × σ
  | [] => ([], state)
  | node :: rest =>
      let (node, state) := node.traverse name visit state
      let (rest, state) := traverse name visit state rest
      (node :: rest, state)
end

end Traverse

section Reports

variable {ρ : Type}

/-- A visit that writes one report and looks at nothing but their number. -/
def numbered (decide : Nat → Element → Edit × ρ) (reports : List ρ) (e : Element) :
    Edit × List ρ :=
  ((decide reports.length e).1, reports ++ [(decide reports.length e).2])

mutual
private theorem node_traverse_eq_editEach {name : String} (decide : Nat → Element → Edit × ρ) :
    ∀ (node : Node) (reports : List ρ), Unnested name [node] →
      node.traverse name (numbered decide) reports =
        ((node.editEach name (fun i e => (decide i e).1) reports.length).1,
          reports ++ (node.elementsNamed name).mapIdx
            fun i e => (decide (reports.length + i) e).2)
  | .element n attributes children, reports, h => by
      by_cases hn : n = name
      · subst hn
        have hNil := unnested_element_self h
        have hUnnested : Unnested n children := by simp [Unnested, hNil]
        have hSame := traverse_eq_editEach decide children
          (reports ++ [(decide reports.length ⟨n, attributes, children⟩).2]) hUnnested
        rw [hNil] at hSame
        unfold Node.traverse Node.editEach
        simp only [beq_self_eq_true, if_true, elementsNamed_element_self, hNil, numbered]
        cases (decide reports.length ⟨n, attributes, children⟩).1.text with
        | some text => simp
        | none => simp [hSame]
      · have hChildren := traverse_eq_editEach decide children reports
          ((unnested_element_of_ne hn).mp h)
        simp [Node.traverse, Node.editEach, hn, elementsNamed_element_of_ne hn, hChildren]
  | .text _, _, _ => by simp [Node.traverse, Node.editEach, Node.elementsNamed]
  | .comment _, _, _ => by simp [Node.traverse, Node.editEach, Node.elementsNamed]
/-- **Numbering the elements by the reports written so far** is numbering them
in document order, and the reports are those of a map. -/
theorem traverse_eq_editEach {name : String} (decide : Nat → Element → Edit × ρ) :
    ∀ (nodes : List Node) (reports : List ρ), Unnested name nodes →
      traverse name (numbered decide) reports nodes =
        ((editEach name (fun i e => (decide i e).1) reports.length nodes).1,
          reports ++ (elementsNamed name nodes).mapIdx
            fun i e => (decide (reports.length + i) e).2)
  | [], _, _ => by simp [traverse, editEach, elementsNamed]
  | node :: rest, reports, h => by
      obtain ⟨hNode, hRest⟩ := unnested_cons.mp h
      have hCount := (node_elementsNamed_editEach (fun i e => (decide i e).1) node
        reports.length hNode).2
      simp only [traverse, node_traverse_eq_editEach decide node reports hNode,
        traverse_eq_editEach decide rest _ hRest, editEach, hCount, elementsNamed_cons,
        List.mapIdx_append, List.length_append, List.length_mapIdx, List.append_assoc,
        Nat.add_assoc, Nat.add_comm (node.elementsNamed name).length]
end

end Reports

end PagePreview.Markup
