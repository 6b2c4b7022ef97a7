import PagePreview.Proofs.Markup.Editing
import PagePreview.Proofs.Markup.Rereading

/-!
# Bodies inside heads

A body that begins inside a head ends it, so a body that is written inside a
head is not read back there.  A page can hold such a body nevertheless, since
what stands in front of the head of a page is moved into it.

`headDepth` counts the heads around every body.  Reading a row of tokens back
never brings more of them than the nodes have that were written
(`sinks_row`), for at every place the open elements of the reader are some of
the elements that were open to the writer.  If the row holds a body in a head,
it brings fewer: the first such body ends a head.
-/

namespace PagePreview.Markup

/-! ## The heads around bodies -/

mutual
/-- How many heads there are around bodies, counted for every body in a node, if there are so many
around the node itself. -/
def Node.headDepth (heads : Nat) : Node → Nat
  | .element name _ children =>
      (if name == "body" then heads else 0) +
        headDepth (heads + if name == "head" then 1 else 0) children
  | .text _ => 0
  | .comment _ => 0
/-- How many heads there are around bodies, counted for every body. -/
def headDepth (heads : Nat) : List Node → Nat
  | [] => 0
  | node :: rest => node.headDepth heads + headDepth heads rest
end

@[simp] theorem headDepth_append (heads : Nat) (xs ys : List Node) :
    headDepth heads (xs ++ ys) = headDepth heads xs + headDepth heads ys := by
  induction xs with
  | nil => simp [headDepth]
  | cons node xs ih => simp only [List.cons_append, headDepth, ih, Nat.add_assoc]

@[simp] theorem headDepth_singleton (heads : Nat) (node : Node) :
    headDepth heads [node] = node.headDepth heads := rfl

mutual
private theorem node_headDepth_eq_zero (heads : Nat) : ∀ node : Node,
    node.elementsNamed "body" = [] → node.headDepth heads = 0
  | .element name attributes children, h => by
      rw [Node.elementsNamed, List.append_eq_nil_iff] at h
      have hName : (name == "body") = false := by
        refine Bool.eq_false_iff.mpr fun hBody => ?_
        simp [hBody] at h
      rw [Node.headDepth, headDepth_eq_zero _ children h.2, hName]
      rfl
  | .text _, _ => rfl
  | .comment _, _ => rfl
/-- Nothing is counted where no body is. -/
theorem headDepth_eq_zero (heads : Nat) : ∀ nodes : List Node,
    elementsNamed "body" nodes = [] → headDepth heads nodes = 0
  | [], _ => rfl
  | node :: rest, h => by
      rw [elementsNamed, List.append_eq_nil_iff] at h
      rw [headDepth, node_headDepth_eq_zero heads node h.1, headDepth_eq_zero heads rest h.2]
end

mutual
private theorem node_headDepth_pos {heads : Nat} (hHeads : 0 < heads) : ∀ node : Node,
    node.elementsNamed "body" ≠ [] → 0 < node.headDepth heads
  | .element name attributes children, h => by
      rw [Node.headDepth]
      cases hName : name == "body" with
      | true => simp [hHeads]
      | false =>
          have hChildren : elementsNamed "body" children ≠ [] := by
            simpa [Node.elementsNamed, hName] using h
          have hInside : 0 < heads + if name == "head" then 1 else 0 := by omega
          have hBelow := headDepth_pos hInside children hChildren
          omega
  | .text _, h => absurd rfl h
  | .comment _, h => absurd rfl h
/-- Within a head every body counts. -/
theorem headDepth_pos {heads : Nat} (hHeads : 0 < heads) : ∀ nodes : List Node,
    elementsNamed "body" nodes ≠ [] → 0 < headDepth heads nodes
  | [], h => absurd rfl h
  | node :: rest, h => by
      rw [elementsNamed, ne_eq, List.append_eq_nil_iff, not_and_or] at h
      rw [headDepth]
      obtain hNode | hRest := h
      · have hFirst := node_headDepth_pos hHeads node hNode
        omega
      · have hLater := headDepth_pos hHeads rest hRest
        omega
end

mutual
private theorem node_headDepth_pos_of_head {head : Element} (hName : head.name = "head")
    (hBody : head.descendants "body" ≠ []) : ∀ (node : Node) (heads : Nat),
      head ∈ node.elements → 0 < node.headDepth heads
  | .element name attributes children, heads, h => by
      rw [Node.headDepth]
      obtain rfl | h := List.mem_cons.mp h
      · have hIsHead : (name == "head") = true := beq_iff_eq.mpr hName
        have hBelow : 0 < headDepth (heads + 1) children :=
          headDepth_pos (Nat.succ_pos heads) children hBody
        rw [hIsHead, if_pos rfl]
        omega
      · have hBelow := headDepth_pos_of_head hName hBody children
          (heads + if name == "head" then 1 else 0) h
        omega
  | .text _, _, h => by simp at h
  | .comment _, _, h => by simp at h
/-- **A body in a head counts**, wherever the head is. -/
theorem headDepth_pos_of_head {head : Element} (hName : head.name = "head")
    (hBody : head.descendants "body" ≠ []) : ∀ (nodes : List Node) (heads : Nat),
      head ∈ elementsOf nodes → 0 < headDepth heads nodes
  | [], _, h => by simp at h
  | node :: rest, heads, h => by
      rw [headDepth]
      obtain h | h := List.mem_append.mp h
      · have hFirst := node_headDepth_pos_of_head hName hBody node heads h
        omega
      · have hLater := headDepth_pos_of_head hName hBody rest heads h
        omega
end

/-! ## The heads around bodies that have been read -/

namespace Builder

/-- The names of the open elements, the innermost one first. -/
def openNames (b : Builder) : List String := b.path.map OpenElement.name

/-- How many heads there are around the bodies that have been read. -/
def depth (b : Builder) : Nat := headDepth 0 b.finish

@[simp] theorem openNames_openElement (b : Builder) (name : String)
    (attributes : List Attribute) :
    (b.openElement name attributes).openNames = name :: b.openNames := rfl

@[simp] theorem depth_close (b : Builder) (name : String) : (b.close name).depth = b.depth :=
  congrArg (headDepth 0) (finish_close b name)

/-- What is counted in the innermost open element is counted in the end. -/
theorem exists_depth_closeAll (path : List OpenElement) :
    ∃ outer, ∀ nodes, headDepth 0 (closeAll path nodes).reverse =
      outer + headDepth ((path.map OpenElement.name).count "head") nodes.reverse := by
  induction path with
  | nil => exact ⟨0, fun nodes => by simp [closeAll]⟩
  | cons o path ih =>
      obtain ⟨outer, hOuter⟩ := ih
      let heads := (path.map OpenElement.name).count "head"
      refine ⟨outer + headDepth heads o.before.reverse + if o.name == "body" then heads else 0,
        fun nodes => ?_⟩
      rw [closeAll, hOuter, List.reverse_cons, headDepth_append, headDepth_singleton,
        Node.headDepth, List.map_cons, List.count_cons]
      simp only [heads, Nat.add_assoc]

theorem depth_addNode (b : Builder) (node : Node) :
    (b.addNode node).depth = b.depth + node.headDepth (b.openNames.count "head") := by
  obtain ⟨outer, hOuter⟩ := exists_depth_closeAll b.path
  change headDepth 0 (closeAll b.path (node :: b.nodes)).reverse = _
  rw [depth, finish, hOuter, hOuter, List.reverse_cons, headDepth_append, headDepth_singleton,
    Nat.add_assoc]
  rfl

@[simp] theorem depth_addText (b : Builder) (cs : List Char) : (b.addText cs).depth = b.depth := by
  cases hText : b.nodes.head?.any Node.isText with
  | false =>
      rw [addText_of_not_text hText, depth_addNode]
      rfl
  | true =>
      obtain ⟨t, rest, hNodes⟩ := exists_text_of_head?_isText hText
      obtain ⟨outer, hOuter⟩ := exists_depth_closeAll b.path
      rw [addText_of_text hNodes, depth, depth, finish, finish, hOuter, hOuter, hNodes]
      simp [Node.headDepth]

@[simp] theorem openNames_addText (b : Builder) (cs : List Char) :
    (b.addText cs).openNames = b.openNames := by
  rw [openNames, path_addText, openNames]

theorem depth_openElement (b : Builder) (name : String) (attributes : List Attribute) :
    (b.openElement name attributes).depth =
      b.depth + if name == "body" then b.openNames.count "head" else 0 := by
  have hNode := depth_addNode b (.element name attributes [])
  rw [depth, finish_openElement]
  exact hNode

/-- Closing an element takes it and all that are open in it off the open ones. -/
theorem exists_openNames_close {b : Builder} {name : String} (h : name ∈ b.openNames) :
    ∃ inner, b.openNames = inner ++ name :: (b.close name).openNames ∧ name ∉ inner := by
  have hThrough : ∀ (path : List OpenElement) (nodes : List Node),
      name ∈ path.map OpenElement.name →
      ∃ inner, path.map OpenElement.name =
        inner ++ name :: (closeThrough name path nodes).1.map OpenElement.name ∧ name ∉ inner := by
    intro path
    induction path with
    | nil => simp
    | cons o path ih =>
        intro nodes hMem
        rw [closeThrough]
        by_cases hName : o.name = name
        · exact ⟨[], by simp [hName], by simp⟩
        · have hLater : name ∈ path.map OpenElement.name :=
            (List.mem_cons.mp hMem).resolve_left (Ne.symm hName)
          obtain ⟨inner, hEq, hNot⟩ :=
            ih (.element o.name o.attributes nodes.reverse :: o.before) hLater
          refine ⟨o.name :: inner, ?_, by simp [hNot, Ne.symm hName]⟩
          simp [hName, hEq]
  have hOpen : b.path.any (·.name == name) = true := by
    obtain ⟨o, ho, hName⟩ := List.mem_map.mp h
    exact List.any_eq_true.mpr ⟨o, ho, beq_iff_eq.mpr hName⟩
  rw [close, if_pos hOpen]
  exact hThrough b.path b.nodes h

theorem close_of_not_mem {b : Builder} {name : String} (h : name ∉ b.openNames) :
    b.close name = b :=
  close_of_not_open fun _ ho hName => h (hName ▸ List.mem_map_of_mem ho)

theorem openNames_close_sublist (b : Builder) (name : String) :
    (b.close name).openNames.Sublist b.openNames := by
  by_cases h : name ∈ b.openNames
  · obtain ⟨inner, hEq, -⟩ := exists_openNames_close h
    rw [hEq]
    exact (List.sublist_cons_self _ _).trans (List.sublist_append_right _ _)
  · rw [close_of_not_mem h]

/-! ## Reading a row back -/

/-- What becomes of a builder while something is read back that was written in `around`, and
behind which the writer was in `behind`.  The open elements stay some of those that are open to
the writer, and no more heads are counted than in what was written.  If the open elements were the
same, they are so afterwards and nothing is counted, or fewer heads are counted. -/
structure Sinks (around behind : List String) (heads : Nat) (b after : Builder) : Prop where
  openNames : b.openNames.Sublist around → after.openNames.Sublist behind
  depth_le : b.openNames.Sublist around → after.depth ≤ b.depth + heads
  same_or_lt : b.openNames = around →
    heads = 0 ∧ after.openNames = behind ∨ after.depth < b.depth + heads

namespace Sinks

variable {around behind inner : List String} {m n : Nat} {b c d : Builder}

/-- Nothing is counted and the open elements stay. -/
theorem of_eq (hNames : c.openNames = b.openNames) (hDepth : c.depth = b.depth) :
    Sinks around around 0 b c where
  openNames h := hNames ▸ h
  depth_le _ := Nat.le_of_eq hDepth
  same_or_lt h := Or.inl ⟨rfl, hNames.trans h⟩

theorem trans (h : Sinks around inner m b c) (h' : Sinks inner behind n c d) :
    Sinks around behind (m + n) b d where
  openNames hNames := h'.openNames (h.openNames hNames)
  depth_le hNames := by
    have hFirst := h.depth_le hNames
    have hSecond := h'.depth_le (h.openNames hNames)
    omega
  same_or_lt hNames := by
    have hSublist : b.openNames.Sublist around := hNames ▸ List.Sublist.refl _
    have hLater := h'.depth_le (h.openNames hSublist)
    obtain ⟨rfl, hSame⟩ | hLess := h.same_or_lt hNames
    · obtain ⟨rfl, hBehind⟩ | hLess := h'.same_or_lt hSame
      · exact Or.inl ⟨rfl, hBehind⟩
      · have hFirst := h.depth_le hSublist
        exact Or.inr (by omega)
    · exact Or.inr (by omega)

/-- An end tag closes the innermost element of the writer, or no element of it that is open. -/
theorem close (b : Builder) (name : String) (around : List String) :
    Sinks (name :: around) around 0 b (b.close name) where
  openNames hNames := by
    by_cases hOpen : name ∈ b.openNames
    · obtain ⟨inner, hEq, -⟩ := exists_openNames_close hOpen
      rw [hEq] at hNames
      exact List.cons_sublist_cons.mp ((List.sublist_append_right _ _).trans hNames)
    · rw [close_of_not_mem hOpen]
      obtain hNames | ⟨rest, hEq, -⟩ := List.sublist_cons_iff.mp hNames
      · exact hNames
      · exact absurd (hEq ▸ List.mem_cons_self) hOpen
  depth_le _ := Nat.le_of_eq (depth_close b name)
  same_or_lt hNames := by
    have hOpen : name ∈ b.openNames := hNames ▸ List.mem_cons_self
    obtain ⟨inner, hEq, hNot⟩ := exists_openNames_close hOpen
    rw [hNames] at hEq
    cases inner with
    | nil => exact Or.inl ⟨rfl, (List.cons.inj hEq).2.symm⟩
    | cons first inner =>
        have hFirst : name = first := (List.cons.inj hEq).1
        exact absurd (hFirst ▸ List.mem_cons_self) hNot

theorem addNode {node : Node} (h : node.elementsNamed "body" = []) (b : Builder)
    (around : List String) : Sinks around around 0 b (b.addNode node) := by
  refine of_eq rfl ?_
  rw [depth_addNode, node_headDepth_eq_zero _ node h, Nat.add_zero]

/-- A start tag opens its element.  A body is counted with the heads around it, of which it has
closed one if there are any. -/
theorem startTag (b : Builder) {name : String} (hVoid : isVoid name = false)
    (attributes : List Attribute) (around : List String) :
    Sinks around (name :: around) (if name == "body" then around.count "head" else 0) b
      (b.startTag name ⟨attributes, false⟩) := by
  have hStart : b.startTag name ⟨attributes, false⟩ =
      (if name == "body" then b.close "head" else b).openElement name attributes := by
    simp [Builder.startTag, hVoid]
  rw [hStart]
  cases hBody : name == "body" with
  | false =>
      have hDepth := depth_openElement b name attributes
      simp only [hBody, Bool.false_eq_true, if_false] at hDepth ⊢
      exact ⟨fun h => List.cons_sublist_cons.mpr h, fun _ => Nat.le_of_eq hDepth,
        fun h => Or.inl ⟨rfl, by rw [openNames_openElement, h]⟩⟩
  | true =>
      have hDepth := depth_openElement (b.close "head") name attributes
      have hNames := openNames_close_sublist b "head"
      simp only [hBody, if_true, depth_close] at hDepth ⊢
      refine ⟨fun h => List.cons_sublist_cons.mpr (hNames.trans h), fun h => ?_, fun h => ?_⟩
      · rw [hDepth]
        exact Nat.add_le_add_left ((hNames.trans h).count_le _) _
      · by_cases hOpen : "head" ∈ b.openNames
        · obtain ⟨inner, hEq, -⟩ := exists_openNames_close hOpen
          have hCount := congrArg (List.count "head") hEq
          rw [List.count_append, List.count_cons_self, h] at hCount
          exact Or.inr (by omega)
        · rw [close_of_not_mem hOpen, openNames_openElement, h]
          exact Or.inl ⟨List.count_eq_zero.mpr (h ▸ hOpen), rfl⟩

end Sinks

mutual
private theorem sinks_node : ∀ (node : Node) (b : Builder) (around : List String),
    node.WellFormed →
    Sinks around around (node.headDepth (around.count "head")) b (node.row.foldl add b)
  | .element name attributes children, b, around, h => by
      cases hRaw : isRawText name with
      | true =>
          have hNamed : ¬ name = "body" := (ne_of_isRawText hRaw (by decide)).symm
          have hNone := elementsNamed_children_of_wellFormed h (Or.inl hRaw) "body"
          rw [row_raw _ _ hRaw, node_headDepth_eq_zero _ _
            ((elementsNamed_element_of_ne hNamed _ _).trans hNone)]
          refine Sinks.addNode ?_ b around
          rw [elementsNamed_element_of_ne hNamed, elementsNamed_textChildren]
      | false =>
          cases hVoid : isVoid name with
          | true =>
              have hNamed : ¬ name = "body" := by
                rintro rfl
                exact absurd hVoid (by decide)
              have hNone := elementsNamed_children_of_wellFormed h (Or.inr hVoid) "body"
              have hAdd := startTag_of_no_head (b := b) (fun hBody => absurd hBody hNamed)
                (attributes.map Attribute.written)
              rw [hVoid, if_pos rfl] at hAdd
              rw [row_void _ _ hRaw hVoid, node_headDepth_eq_zero _ _
                ((elementsNamed_element_of_ne hNamed _ _).trans hNone), List.foldl_cons,
                List.foldl_nil, add, hAdd]
              exact Sinks.addNode (elementsNamed_element_of_ne hNamed _ _) b around
          | false =>
              have hOpen := Sinks.startTag b hVoid (attributes.map Attribute.written) around
              have hInside := sinks_row children
                (b.startTag name ⟨attributes.map Attribute.written, false⟩) (name :: around)
                h.children
              have hClose := Sinks.close ((row children).foldl add
                (b.startTag name ⟨attributes.map Attribute.written, false⟩)) name around
              have hAll := (hOpen.trans hInside).trans hClose
              rw [List.count_cons, Nat.add_zero] at hAll
              rw [row_filled _ _ hRaw hVoid, List.foldl_cons, List.foldl_append, Node.headDepth]
              exact hAll
  | .text t, b, around, _ => Sinks.of_eq (openNames_addText b _) (depth_addText b _)
  | .comment t, b, around, _ => Sinks.addNode rfl b around
/-- **Reading a row back never brings more heads around bodies**, and it brings fewer if there are
any where the reader and the writer have the same elements open. -/
theorem sinks_row : ∀ (nodes : List Node) (b : Builder) (around : List String),
    (∀ n ∈ nodes, n.WellFormed) →
    Sinks around around (headDepth (around.count "head") nodes) b ((row nodes).foldl add b)
  | [], _, _, _ => Sinks.of_eq rfl rfl
  | node :: rest, b, around, h => by
      obtain ⟨hNode, hRest⟩ := List.forall_mem_cons.mp h
      rw [row, List.foldl_append]
      exact (sinks_node node b around hNode).trans
        (sinks_row rest (node.row.foldl add b) around hRest)
end

end Builder

/-! ## Normalising what has been read -/

theorem headDepth_filter_isContent (heads : Nat) (nodes : List Node) :
    headDepth heads (nodes.filter Node.isContent) = headDepth heads nodes := by
  induction nodes with
  | nil => rfl
  | cons node nodes ih =>
      cases node with
      | element _ _ _ => rw [List.filter_cons_of_pos rfl, headDepth, headDepth, ih]
      | text _ | comment _ =>
          rw [List.filter_cons, headDepth, ← ih]
          split <;> simp [headDepth, Node.headDepth]

/-- What is appended to a root is counted as it was. -/
theorem headDepth_appendToBody {root : Element} (hName : root.name = "html") (nodes : List Node) :
    (appendToBody root nodes).toNode.headDepth 0 =
      root.toNode.headDepth 0 + headDepth 0 nodes := by
  have hRoot : ∀ children : List Node,
      ({ root with children } : Element).toNode.headDepth 0 = headDepth 0 children := by
    intro children
    simp [Element.toNode, Node.headDepth, hName]
  have hBefore : root.toNode.headDepth 0 = headDepth 0 root.children := hRoot root.children
  unfold appendToBody
  split
  · next hBody =>
      obtain ⟨before, body, after, hBreak⟩ := hasChild_eq_true_iff.mp hBody
      obtain ⟨hChildren, hIsBody, -⟩ := breakAt?_eq_some_iff.mp hBreak
      have hGrown : (body.append nodes).toNode.headDepth 0 =
          body.toNode.headDepth 0 + headDepth 0 nodes := by
        simp [Element.toNode, Element.append, Node.headDepth, hIsBody]
      rw [Element.changeChild, changeFirst_of_breakAt? hBreak, hRoot, hBefore, hChildren]
      simp only [headDepth_append, headDepth, hGrown, Nat.add_assoc, Nat.add_comm (headDepth 0 nodes)]
  · rw [Element.append, hRoot, headDepth_append, hBefore]

/-- Normalising counts no heads that were not there, if the first root begins with its head. -/
theorem headDepth_normalize_le {nodes before after : List Node} {root : Element}
    (hBreak : breakAt? "html" nodes = some (before, root, after)) (h : root.HeadFirst)
    (hBlank : ∀ n ∈ before, n.isContent = false) :
    (normalize nodes).toNode.headDepth 0 ≤ headDepth 0 nodes := by
  obtain ⟨hNodes, hName, -⟩ := breakAt?_eq_some_iff.mp hBreak
  rw [normalize_of_breakAt? hBreak h hBlank, headDepth_appendToBody hName,
    headDepth_filter_isContent, hNodes, headDepth_append, headDepth]
  exact Nat.le_add_left _ _

end PagePreview.Markup
