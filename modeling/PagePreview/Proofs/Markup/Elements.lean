import PagePreview.Markup.Normalize

/-!
# The elements of a tree

`elementsOf` lists every element of a forest in document order, whatever its
name; `elementsNamed` is the part of it that carries one name
(`elementsNamed_eq_filter`).  The list turns a property of a whole tree into
a property of single elements, and it does not see how a forest is cut into
pieces (`elementsOf_append`).

The second half describes `breakAt?`, the one way in which `normalize` looks
into a list of nodes, by the equation `breakAt?_eq_some_iff`; what
`changeFirst` and `Element.hasChild` do follows from it.
-/

namespace PagePreview.Markup

mutual
/-- Every element in a node, in document order. -/
def Node.elements : Node → List Element
  | .element name attributes children =>
      ⟨name, attributes, children⟩ :: elementsOf children
  | .text _ => []
  | .comment _ => []
/-- Every element in a list of nodes, in document order. -/
def elementsOf : List Node → List Element
  | [] => []
  | node :: rest => node.elements ++ elementsOf rest
end

@[simp] theorem elementsOf_nil : elementsOf [] = [] := rfl

@[simp] theorem elementsOf_cons (node : Node) (rest : List Node) :
    elementsOf (node :: rest) = node.elements ++ elementsOf rest := rfl

@[simp] theorem elements_element (name : String) (attributes : List Attribute)
    (children : List Node) :
    (Node.element name attributes children).elements =
      ⟨name, attributes, children⟩ :: elementsOf children := rfl

@[simp] theorem elements_text (t : String) : (Node.text t).elements = [] := rfl

@[simp] theorem elements_comment (t : String) : (Node.comment t).elements = [] := rfl

@[simp] theorem isElement_element (name : String) (attributes : List Attribute)
    (children : List Node) : (Node.element name attributes children).isElement = true := rfl

@[simp] theorem isNamed_element (name n : String) (attributes : List Attribute)
    (children : List Node) : (Node.element n attributes children).isNamed name = (n == name) := rfl

@[simp] theorem isContent_element (name : String) (attributes : List Attribute)
    (children : List Node) : (Node.element name attributes children).isContent = true := rfl

@[simp] theorem elementsOf_append (xs ys : List Node) :
    elementsOf (xs ++ ys) = elementsOf xs ++ elementsOf ys := by
  induction xs with
  | nil => rfl
  | cons node rest ih => simp [ih]

@[simp] theorem elements_toNode (e : Element) :
    e.toNode.elements = e :: elementsOf e.children := rfl

mutual
private theorem node_elementsNamed_eq_filter (name : String) :
    ∀ node : Node, node.elementsNamed name = node.elements.filter (·.name == name)
  | .element n attributes children => by
      rw [Node.elementsNamed, elementsNamed_eq_filter name children, elements_element,
        List.filter_cons]
      split <;> simp_all
  | .text _ => rfl
  | .comment _ => rfl
/-- The elements of one name are the elements that carry it. -/
theorem elementsNamed_eq_filter (name : String) :
    ∀ nodes : List Node, elementsNamed name nodes = (elementsOf nodes).filter (·.name == name)
  | [] => rfl
  | node :: rest => by
      rw [elementsNamed, node_elementsNamed_eq_filter name node,
        elementsNamed_eq_filter name rest, elementsOf_cons, List.filter_append]
end

theorem mem_elementsNamed {name : String} {nodes : List Node} {e : Element} :
    e ∈ elementsNamed name nodes ↔ e ∈ elementsOf nodes ∧ e.name = name := by
  rw [elementsNamed_eq_filter, List.mem_filter, beq_iff_eq]

@[simp] theorem elementsNamed_append (name : String) (xs ys : List Node) :
    elementsNamed name (xs ++ ys) = elementsNamed name xs ++ elementsNamed name ys := by
  simp only [elementsNamed_eq_filter, elementsOf_append, List.filter_append]

/-- An element of another name contributes what lies below it. -/
theorem elementsNamed_toNode_cons {name : String} {e : Element} (hName : e.name ≠ name)
    (rest : List Node) :
    elementsNamed name (e.toNode :: rest) = e.descendants name ++ elementsNamed name rest := by
  simp [Element.descendants, elementsNamed_eq_filter, hName]

@[simp] theorem elementsNamed_textChildren (name text : String) :
    elementsNamed name (textChildren text) = [] := by
  unfold textChildren
  split <;> rfl

/-- Texts and comments hold no element. -/
theorem elementsOf_eq_nil {nodes : List Node} (h : ∀ n ∈ nodes, n.isElement = false) :
    elementsOf nodes = [] := by
  induction nodes with
  | nil => rfl
  | cons node rest ih =>
      have hRest := ih fun n hn => h n (by simp [hn])
      cases node with
      | element name attributes children =>
          exact absurd (h _ List.mem_cons_self) (by simp)
      | text t => simpa using hRest
      | comment t => simpa using hRest

/-- Dropping comments and blank texts drops no element. -/
theorem elementsOf_filter_isContent (nodes : List Node) :
    elementsOf (nodes.filter Node.isContent) = elementsOf nodes := by
  induction nodes with
  | nil => rfl
  | cons node rest ih =>
      cases node with
      | element name attributes children =>
          rw [List.filter_cons_of_pos (isContent_element ..), elementsOf_cons, ih]
          rfl
      | text t =>
          rw [List.filter_cons]
          split <;> simp [ih]
      | comment t => simp [Node.isContent, ih]

theorem elementsNamed_filter_isContent (name : String) (nodes : List Node) :
    elementsNamed name (nodes.filter Node.isContent) = elementsNamed name nodes := by
  rw [elementsNamed_eq_filter, elementsOf_filter_isContent, ← elementsNamed_eq_filter]

/-! ## Finding the first element of a name -/

attribute [local simp] breakAt? changeFirst

@[simp] theorem isNamed_toNode (e : Element) (name : String) :
    e.toNode.isNamed name = (e.name == name) := rfl

theorem isNamed_eq_false_of_not_isElement {n : Node} (h : n.isElement = false)
    (name : String) : n.isNamed name = false := by
  cases n with
  | element _ _ _ => simp [Node.isElement] at h
  | text _ => rfl
  | comment _ => rfl

/-- A node that is not an element of the name is passed over. -/
private theorem breakAt?_cons_of_not_isNamed {name : String} {node : Node}
    (h : node.isNamed name = false) (rest : List Node) :
    breakAt? name (node :: rest) =
      (breakAt? name rest).map fun (before, e, after) => (node :: before, e, after) := by
  cases node with
  | element n attributes children =>
      have hn : ¬ n = name := by simpa using h
      simp [Node.element?, hn]
  | text _ => rfl
  | comment _ => rfl

private theorem breakAt?_toNode_cons {name : String} {e : Element} (h : e.name = name)
    (rest : List Node) : breakAt? name (e.toNode :: rest) = some ([], e, rest) := by
  simp [h]

/-- A node of the name is the element it shows itself to be. -/
theorem exists_toNode_of_isNamed {name : String} {node : Node}
    (h : node.isNamed name = true) : ∃ e : Element, node = e.toNode ∧ e.name = name := by
  cases node with
  | element n attributes children => exact ⟨⟨n, attributes, children⟩, rfl, by simpa using h⟩
  | text _ => simp [Node.isNamed] at h
  | comment _ => simp [Node.isNamed] at h

/-- `breakAt?` cuts at the first element of the name and changes nothing. -/
theorem breakAt?_eq_some_iff {name : String} {nodes before after : List Node} {e : Element} :
    breakAt? name nodes = some (before, e, after) ↔
      nodes = before ++ e.toNode :: after ∧ e.name = name ∧
        ∀ n ∈ before, n.isNamed name = false := by
  induction nodes generalizing before with
  | nil => simp
  | cons node rest ih =>
      by_cases h : node.isNamed name = true
      · obtain ⟨d, rfl, hd⟩ := exists_toNode_of_isNamed h
        rw [breakAt?_toNode_cons hd]
        constructor
        · intro hEq
          simp only [Option.some.injEq, Prod.mk.injEq] at hEq
          obtain ⟨rfl, rfl, rfl⟩ := hEq
          exact ⟨rfl, hd, by simp⟩
        · rintro ⟨hEq, he, hBefore⟩
          cases before with
          | nil =>
              have hde : some d = some e := by
                simpa using congrArg Node.element? (List.cons.inj hEq).1
              rw [Option.some.inj hde, (List.cons.inj hEq).2]
          | cons b before =>
              have := hBefore b (by simp)
              rw [← (List.cons.inj hEq).1] at this
              exact absurd h (by simp [this])
      · have hFalse : node.isNamed name = false := by simpa using h
        rw [breakAt?_cons_of_not_isNamed hFalse]
        constructor
        · intro hEq
          obtain ⟨⟨b, d, a⟩, hRest, hEq⟩ := Option.map_eq_some_iff.mp hEq
          simp only [Prod.mk.injEq] at hEq
          obtain ⟨rfl, rfl, rfl⟩ := hEq
          obtain ⟨rfl, hName, hb⟩ := ih.mp hRest
          exact ⟨rfl, hName, by simpa [hFalse] using hb⟩
        · rintro ⟨hEq, he, hBefore⟩
          cases before with
          | nil =>
              rw [(List.cons.inj hEq).1] at hFalse
              simp [he] at hFalse
          | cons b before =>
              obtain ⟨rfl, hRest⟩ := List.cons.inj hEq
              rw [ih.mpr ⟨hRest, he, fun n hn => hBefore n (by simp [hn])⟩]
              rfl

/-- Nothing is found exactly where no node carries the name. -/
theorem breakAt?_eq_none_iff {name : String} {nodes : List Node} :
    breakAt? name nodes = none ↔ ∀ n ∈ nodes, n.isNamed name = false := by
  induction nodes with
  | nil => simp
  | cons node rest ih =>
      by_cases h : node.isNamed name = true
      · obtain ⟨d, rfl, hd⟩ := exists_toNode_of_isNamed h
        simp [hd]
      · have hFalse : node.isNamed name = false := by simpa using h
        rw [breakAt?_cons_of_not_isNamed hFalse]
        simp [hFalse, ih]

/-- What an element with a child of that name looks like. -/
theorem hasChild_eq_true_iff {name : String} {e : Element} :
    e.hasChild name = true ↔
      ∃ before child after, breakAt? name e.children = some (before, child, after) := by
  constructor
  · intro h
    cases hb : breakAt? name e.children with
    | none =>
        obtain ⟨n, hn, hNamed⟩ := List.any_eq_true.mp h
        rw [breakAt?_eq_none_iff.mp hb n hn] at hNamed
        exact absurd hNamed (by simp)
    | some found => exact ⟨found.1, found.2.1, found.2.2, rfl⟩
  · rintro ⟨before, child, after, h⟩
    obtain ⟨hEq, hName, -⟩ := breakAt?_eq_some_iff.mp h
    simp [Element.hasChild, hEq, hName]

theorem hasChild_eq_false_iff {name : String} {e : Element} :
    e.hasChild name = false ↔ breakAt? name e.children = none := by
  rw [breakAt?_eq_none_iff, Element.hasChild, List.any_eq_false]
  simp

/-- `changeFirst` changes the element that `breakAt?` finds, in its place. -/
theorem changeFirst_of_breakAt? {name : String} {nodes before after : List Node} {e : Element}
    (h : breakAt? name nodes = some (before, e, after)) (change : Element → Element) :
    changeFirst name change nodes = before ++ (change e).toNode :: after := by
  obtain ⟨rfl, hName, hBefore⟩ := breakAt?_eq_some_iff.mp h
  clear h
  induction before with
  | nil => exact if_pos (beq_iff_eq.mpr hName)
  | cons b before ih =>
      have hRest := ih fun n hn => hBefore n (by simp [hn])
      cases b with
      | element n attributes children =>
          have hn : ¬ n = name := by simpa using hBefore _ List.mem_cons_self
          simp [hn, hRest]
      | text _ => simp [hRest]
      | comment _ => simp [hRest]

theorem changeFirst_of_breakAt?_eq_none {name : String} {nodes : List Node}
    (h : breakAt? name nodes = none) (change : Element → Element) :
    changeFirst name change nodes = nodes := by
  have hNodes := breakAt?_eq_none_iff.mp h
  clear h
  induction nodes with
  | nil => rfl
  | cons node rest ih =>
      have hRest := ih fun n hn => hNodes n (by simp [hn])
      cases node with
      | element n attributes children =>
          have hn : ¬ n = name := by simpa using hNodes _ List.mem_cons_self
          simp [hn, hRest]
      | text _ => simp [hRest]
      | comment _ => simp [hRest]

end PagePreview.Markup
