import PagePreview.Proofs.Markup.JoinedRow
import PagePreview.Proofs.Markup.RoundTrip

/-!
# Trees that have settled

Reading may leave texts side by side and double quotes in attributes, and
printing hides both: neighbouring texts are written as one, and a quote is
written as `&quot;`.  `settle` does to a tree what writing it does, so it is
the best that reading the tree back can bring.

* `row_settle`: the row of a settled tree is the joined row of the tree, so
  the two are the same text.
* `elementsOf_settle`: the elements stay the same but for that.
* `textsPrintable_settle`: the texts of a settled tree stand apart, and they
  are printable if nothing opens in its row.
-/

namespace PagePreview.Markup

open Text

/-- Puts a node in front of others.  A text joins a text behind it, and an empty one vanishes. -/
def Node.inFront : Node → List Node → List Node
  | .text t, .text u :: rest => .text (t ++ u) :: rest
  | .text t, rest => if t.isEmpty then rest else .text t :: rest
  | .element name attributes children, rest => .element name attributes children :: rest
  | .comment t, rest => .comment t :: rest

mutual
/-- A node as it is written: its attributes without double quotes, the texts in it joined. -/
def Node.settle : Node → Node
  | .element name attributes children =>
      .element name (attributes.map Attribute.written) (settle children)
  | .text t => .text t
  | .comment t => .comment t
/-- Nodes as they are written: texts that follow one another are one text. -/
def settle : List Node → List Node
  | [] => []
  | node :: rest => node.settle.inFront (settle rest)
end

/-- An element as it is written. -/
def Element.settled (e : Element) : Element :=
  ⟨e.name, e.attributes.map Attribute.written, settle e.children⟩

@[simp] theorem settle_toNode (e : Element) : e.toNode.settle = e.settled.toNode := rfl

@[simp] theorem isText_settle (node : Node) : node.settle.isText = node.isText := by
  cases node <;> rfl

theorem inFront_of_not_text {node : Node} (h : node.isText = false) (nodes : List Node) :
    node.inFront nodes = node :: nodes := by
  cases node with
  | text _ => simp [Node.isText] at h
  | element _ _ _ | comment _ => rfl

/-- What becomes of a text in front of others: it joins one, or it vanishes, or it stands there. -/
theorem inFront_text_cases (t : String) (nodes : List Node) :
    (∃ u rest, nodes = .text u :: rest ∧ Node.inFront (.text t) nodes = .text (t ++ u) :: rest) ∨
      nodes.head?.any Node.isText = false ∧
        (t = "" ∧ Node.inFront (.text t) nodes = nodes ∨
          t ≠ "" ∧ Node.inFront (.text t) nodes = .text t :: nodes) := by
  cases hText : nodes.head?.any Node.isText with
  | true =>
      obtain ⟨u, rest, rfl⟩ := exists_text_of_head?_isText hText
      exact Or.inl ⟨u, rest, rfl, rfl⟩
  | false =>
      have hFront : Node.inFront (.text t) nodes =
          if t.isEmpty then nodes else .text t :: nodes := by
        cases nodes with
        | nil => rfl
        | cons node nodes =>
            cases node with
            | text _ => simp [Node.isText] at hText
            | element _ _ _ | comment _ => rfl
      by_cases hEmpty : t = ""
      · exact Or.inr ⟨rfl, Or.inl ⟨hEmpty, by rw [hFront, if_pos (by simp [hEmpty])]⟩⟩
      · exact Or.inr ⟨rfl, Or.inr ⟨hEmpty, by rw [hFront, if_neg (by simp [hEmpty])]⟩⟩

theorem settle_cons_of_not_text {node : Node} (h : node.isText = false) (rest : List Node) :
    settle (node :: rest) = node.settle :: settle rest :=
  inFront_of_not_text (by simpa using h) _

theorem inFront_append_cons {node : Node} (h : node.isText = false) (n : Node) (xs ys : List Node) :
    n.inFront (xs ++ node :: ys) = n.inFront xs ++ node :: ys := by
  cases n with
  | element _ _ _ | comment _ => rfl
  | text t =>
      cases xs with
      | nil =>
          cases node with
          | text _ => simp [Node.isText] at h
          | element _ _ _ | comment _ =>
              simp only [Node.inFront, List.nil_append]
              split <;> rfl
      | cons x xs =>
          cases x with
          | text _ => rfl
          | element _ _ _ | comment _ =>
              simp only [Node.inFront, List.cons_append]
              split <;> rfl

/-- Another node keeps the texts on its two sides apart. -/
theorem settle_append_cons {node : Node} (h : node.isText = false) (xs ys : List Node) :
    settle (xs ++ node :: ys) = settle xs ++ node.settle :: settle ys := by
  have hSettled : node.settle.isText = false := by rwa [isText_settle]
  induction xs with
  | nil => exact settle_cons_of_not_text h ys
  | cons x xs ih => rw [List.cons_append, settle, ih, inFront_append_cons hSettled, settle]

theorem settle_singleton (e : Element) : settle [e.toNode] = [e.settled.toNode] :=
  settle_cons_of_not_text rfl []

/-! ## What is written of a settled tree -/

/-- Writing attributes once more changes nothing. -/
@[simp] theorem map_written_written (attributes : List Attribute) :
    (attributes.map Attribute.written).map Attribute.written =
      attributes.map Attribute.written :=
  map_written_of_quoteFree (quoteFree_written attributes)

theorem textOf_inFront (node : Node) (nodes : List Node) :
    textOf (node.inFront nodes) = textOf (node :: nodes) := by
  cases node with
  | element _ _ _ | comment _ => rfl
  | text t =>
      obtain ⟨u, rest, rfl, hFront⟩ | ⟨-, ⟨rfl, hFront⟩ | ⟨-, hFront⟩⟩ :=
        inFront_text_cases t nodes
      · rw [hFront]
        simp [textOf]
      · rw [hFront]
        simp [textOf]
      · rw [hFront]

/-- The text of the nodes stays the same. -/
theorem textOf_settle (nodes : List Node) : textOf (settle nodes) = textOf nodes := by
  induction nodes with
  | nil => rfl
  | cons node nodes ih =>
      rw [settle, textOf_inFront]
      cases node with
      | element _ _ _ | text _ | comment _ => simpa [textOf, Node.settle] using ih

theorem head?_row (nodes : List Node) :
    (row nodes).head?.any Token.isText = nodes.head?.any Node.isText := by
  cases nodes with
  | nil => rfl
  | cons node nodes =>
      cases node with
      | text _ | comment _ => rfl
      | element name attributes children =>
          cases hRaw : isRawText name with
          | true => rw [row, row_raw _ _ hRaw]; rfl
          | false =>
              cases hVoid : isVoid name with
              | true => rw [row, row_void _ _ hRaw hVoid]; rfl
              | false => rw [row, row_filled _ _ hRaw hVoid]; rfl

theorem joinText_of_not_text {tokens : List Token} (h : tokens.head?.any Token.isText = false)
    (cs : List Char) : joinText cs tokens = if cs.isEmpty then tokens else .text cs :: tokens := by
  cases tokens with
  | nil => rfl
  | cons token tokens =>
      cases token with
      | text _ => simp [Token.isText] at h
      | comment _ | declaration _ | startTag _ _ | endTag _ | rawText _ _ _ => rfl

theorem row_inFront_text (t : String) (nodes : List Node) :
    row (Node.inFront (.text t) nodes) = joinText t.toList (row nodes) := by
  obtain ⟨u, rest, rfl, hFront⟩ | ⟨hText, hCases⟩ := inFront_text_cases t nodes
  · rw [hFront]
    simp [row, Node.row, joinText]
  · rw [joinText_of_not_text ((head?_row nodes).trans hText)]
    obtain ⟨rfl, hFront⟩ | ⟨hNonempty, hFront⟩ := hCases
    · rw [hFront]
      rfl
    · rw [hFront]
      simp [row, Node.row, hNonempty]

mutual
private theorem row_settle_cons : ∀ (node : Node) (rest : List Node),
    row (settle rest) = joinTexts (row rest) →
      row (node.settle.inFront (settle rest)) = joinTexts (node.row ++ row rest)
  | .element name attributes children, rest, hRest => by
      have hChildren := row_settle children
      rw [inFront_of_not_text rfl, row, hRest, Node.settle]
      cases hRaw : isRawText name with
      | true =>
          rw [row_raw _ _ hRaw, row_raw _ _ hRaw, map_written_written, textOf_settle,
            List.singleton_append, List.singleton_append, joinTexts_cons rfl]
      | false =>
          cases hVoid : isVoid name with
          | true =>
              rw [row_void _ _ hRaw hVoid, row_void _ _ hRaw hVoid, map_written_written,
                List.singleton_append, List.singleton_append, joinTexts_cons rfl]
          | false =>
              rw [row_filled _ _ hRaw hVoid, row_filled _ _ hRaw hVoid, map_written_written,
                List.cons_append, List.cons_append, joinTexts_cons rfl, List.append_assoc,
                List.append_assoc, List.singleton_append, List.singleton_append,
                joinTexts_append_cons rfl, hChildren]
  | .text t, rest, hRest => by
      rw [Node.settle, row_inFront_text, hRest]
      rfl
  | .comment t, rest, hRest => by
      rw [Node.settle, inFront_of_not_text rfl, row, hRest]
      rfl
/-- **The row of settled nodes is the joined row of the nodes.** -/
theorem row_settle : ∀ nodes : List Node, row (settle nodes) = joinTexts (row nodes)
  | [] => rfl
  | node :: rest => row_settle_cons node rest (row_settle rest)
end

/-! ## The elements of a settled tree -/

theorem elementsOf_inFront (node : Node) (nodes : List Node) :
    elementsOf (node.inFront nodes) = node.elements ++ elementsOf nodes := by
  cases node with
  | element _ _ _ | comment _ => rfl
  | text t =>
      obtain ⟨u, rest, rfl, hFront⟩ | ⟨-, ⟨-, hFront⟩ | ⟨-, hFront⟩⟩ :=
        inFront_text_cases t nodes
      · rw [hFront]
        rfl
      · rw [hFront]
        rfl
      · rw [hFront]
        rfl

mutual
private theorem elements_settle : ∀ node : Node,
    node.settle.elements = node.elements.map Element.settled
  | .element name attributes children => by
      rw [Node.settle, elements_element, elements_element, elementsOf_settle children]
      rfl
  | .text _ => rfl
  | .comment _ => rfl
/-- **The elements of settled nodes are those of the nodes, as they are written.** -/
theorem elementsOf_settle : ∀ nodes : List Node,
    elementsOf (settle nodes) = (elementsOf nodes).map Element.settled
  | [] => rfl
  | node :: rest => by
      rw [settle, elementsOf_inFront, elements_settle node, elementsOf_settle rest,
        elementsOf_cons, List.map_append]
end

theorem elementsNamed_settle (name : String) (nodes : List Node) :
    elementsNamed name (settle nodes) = (elementsNamed name nodes).map Element.settled := by
  rw [elementsNamed_eq_filter, elementsOf_settle, elementsNamed_eq_filter, List.filter_map]
  rfl

/-- The texts among settled nodes are not empty. -/
theorem ne_empty_of_mem_settle {t : String} {nodes : List Node} (h : .text t ∈ settle nodes) :
    t ≠ "" := by
  induction nodes generalizing t with
  | nil => simp [settle] at h
  | cons node nodes ih =>
      rw [settle] at h
      cases node with
      | element _ _ _ | comment _ =>
          obtain hEq | h := List.mem_cons.mp h
          · exact Node.noConfusion hEq
          · exact ih h
      | text v =>
          obtain ⟨u, rest, hRest, hFront⟩ | ⟨-, ⟨-, hFront⟩ | ⟨hNonempty, hFront⟩⟩ :=
            inFront_text_cases v (settle nodes)
          all_goals rw [Node.settle, hFront] at h
          · rw [hRest] at ih
            obtain hEq | h := List.mem_cons.mp h
            · have hLast : u ≠ "" := ih List.mem_cons_self
              simp [Node.text.inj hEq, hLast]
            · exact ih (List.mem_cons_of_mem _ h)
          · exact ih h
          · obtain hEq | h := List.mem_cons.mp h
            · exact Node.text.inj hEq ▸ hNonempty
            · exact ih h

/-- What is no text among settled nodes is one of the nodes as it is written. -/
theorem exists_settle_of_mem {n : Node} {nodes : List Node} (h : n ∈ settle nodes)
    (hText : n.isText = false) : ∃ m ∈ nodes, n = m.settle := by
  induction nodes with
  | nil => simp [settle] at h
  | cons node nodes ih =>
      have hLater : n ∈ settle nodes → ∃ m ∈ node :: nodes, n = m.settle := fun hn =>
        have ⟨m, hm, hEq⟩ := ih hn
        ⟨m, List.mem_cons_of_mem _ hm, hEq⟩
      have hFirst : ∀ {t : String} {rest : List Node}, n ∈ .text t :: rest → n ∈ rest := by
        intro t rest hn
        refine (List.mem_cons.mp hn).resolve_left ?_
        rintro rfl
        exact absurd hText (by simp [Node.isText])
      rw [settle] at h
      cases node with
      | element _ _ _ | comment _ =>
          obtain rfl | h := List.mem_cons.mp h
          · exact ⟨_, List.mem_cons_self, rfl⟩
          · exact hLater h
      | text v =>
          obtain ⟨u, rest, hRest, hFront⟩ | ⟨-, ⟨-, hFront⟩ | ⟨-, hFront⟩⟩ :=
            inFront_text_cases v (settle nodes)
          all_goals rw [Node.settle, hFront] at h
          · rw [hRest] at hLater
            exact hLater (List.mem_cons_of_mem _ (hFirst h))
          · exact hLater h
          · exact hLater (hFirst h)

/-- **No two texts stand side by side among settled nodes.** -/
theorem textsApart_settle (nodes : List Node) : textsApart (settle nodes) = true := by
  have hFront : ∀ (n : Node) (rest : List Node), textsApart rest = true →
      textsApart (n.inFront rest) = true := by
    intro n rest hRest
    cases n with
    | element _ _ _ | comment _ => simpa [Node.inFront, textsApart, Node.isText] using hRest
    | text t =>
        obtain ⟨u, rest, rfl, hFront⟩ | ⟨hText, ⟨-, hFront⟩ | ⟨-, hFront⟩⟩ :=
          inFront_text_cases t rest
        · rw [hFront]
          exact hRest
        · rwa [hFront]
        · rw [hFront]
          simp [textsApart, hText, hRest]
  induction nodes with
  | nil => rfl
  | cons node nodes ih => exact hFront _ _ ih

/-! ## Settling keeps a tree well formed -/

theorem settle_textChildren (t : String) : settle (textChildren t) = textChildren t := by
  unfold textChildren
  split
  · rfl
  · next hNonempty => exact if_neg hNonempty

theorem isLegalComment_settle (node : Node) : node.settle.isLegalComment = node.isLegalComment := by
  cases node <;> rfl

theorem Element.WellFormed.settled {e : Element} (h : e.WellFormed) : e.settled.WellFormed where
  named := h.named
  attributes := h.attributes.written
  void hVoid := by
    change settle e.children = []
    rw [h.void hVoid]
    rfl
  raw hRaw := by
    have hContent := h.raw hRaw
    have hChildren := (nodesChars_of_isRawContent hContent).2.1
    change isRawContent e.name (settle e.children) = true
    rwa [← hChildren, settle_textChildren, hChildren]
  comments n hn := by
    cases n with
    | element _ _ _ | text _ => rfl
    | comment t =>
        obtain ⟨m, hm, hEq⟩ := exists_settle_of_mem hn rfl
        rw [hEq, isLegalComment_settle]
        exact h.comments m hm

theorem Node.WellFormed.settle {node : Node} (h : node.WellFormed) : node.settle.WellFormed := by
  refine ⟨(isLegalComment_settle node).trans h.comment, ?_⟩
  rw [elements_settle]
  exact List.forall_mem_map.mpr fun e he => (h.elements e he).settled

/-! ## When a settled tree is printable -/

section Rows

variable {e : Element} {token : Token}

mutual
private theorem mem_row_of_mem_elements (hToken : token ∈ row e.children)
    (hRaw : isRawText e.name = false) : ∀ node : Node, node.WellFormed → e ∈ node.elements →
      token ∈ node.row
  | .element name attributes children, h, he => by
      rw [elements_element, List.mem_cons] at he
      cases hIsRaw : isRawText name with
      | true =>
          rw [elementsOf_of_isRawContent (h.element.raw hIsRaw)] at he
          obtain rfl | he := he
          · exact absurd hIsRaw (by simp [hRaw])
          · simp at he
      | false =>
          cases hVoid : isVoid name with
          | true =>
              have hNil : children = [] := h.element.void hVoid
              subst hNil
              obtain rfl | he := he
              · simp [row] at hToken
              · simp at he
          | false =>
              rw [row_filled _ _ hIsRaw hVoid]
              refine List.mem_cons_of_mem _ (List.mem_append_left _ ?_)
              obtain rfl | he := he
              · exact hToken
              · exact mem_row_of_mem_elementsOf hToken hRaw children h.children he
/-- What is written in an element, it is written in what is written of the nodes. -/
theorem mem_row_of_mem_elementsOf (hToken : token ∈ row e.children)
    (hRaw : isRawText e.name = false) : ∀ nodes : List Node, (∀ n ∈ nodes, n.WellFormed) →
      e ∈ elementsOf nodes → token ∈ row nodes
  | [], _, he => by simp at he
  | node :: rest, h, he => by
      obtain ⟨hNode, hRest⟩ := List.forall_mem_cons.mp h
      rw [elementsOf_cons, List.mem_append] at he
      exact List.mem_append.mpr (he.imp (mem_row_of_mem_elements hToken hRaw node hNode)
        (mem_row_of_mem_elementsOf hToken hRaw rest hRest))
end

end Rows

theorem text_mem_row {t : String} {nodes : List Node} (h : .text t ∈ nodes) :
    .text t.toList ∈ row nodes := by
  induction nodes with
  | nil => simp at h
  | cons node nodes ih =>
      obtain rfl | h := List.mem_cons.mp h
      · exact List.mem_cons_self
      · exact List.mem_append_right _ (ih h)

/-- **The texts of settled nodes are printable** if nothing opens in their row. -/
theorem textsPrintable_settle {nodes : List Node}
    (h : ∀ token ∈ row (settle nodes), token.opens = false) : TextsPrintable (settle nodes) := by
  refine ⟨fun n hn => ?_, textsApart_settle nodes⟩
  cases n with
  | element _ _ _ | comment _ => rfl
  | text t =>
      have hInert := h _ (text_mem_row hn)
      simpa [Node.isPrintableText, ne_empty_of_mem_settle hn, Token.opens] using hInert

/-- A well-formed tree in whose texts no markup opens is printable once it has settled, if there is
no body in any of its heads. -/
theorem printable_settled {root : Element} (h : root.toNode.WellFormed)
    (hQuiet : ∀ token ∈ row [root.settled.toNode], token.opens = false)
    (hHeads : ∀ e ∈ root.toNode.elements, e.name = "head" → e.descendants "body" = []) :
    ∀ e ∈ root.settled.toNode.elements, e.Printable := by
  have hSettled := h.settle
  rw [settle_toNode] at hSettled
  intro e he
  obtain ⟨d, hd, rfl⟩ : ∃ d ∈ root.toNode.elements, d.settled = e := by
    rw [← settle_toNode, elements_settle] at he
    exact List.mem_map.mp he
  refine ⟨hSettled.elements _ he, quoteFree_written d.attributes, fun hRaw => ?_, fun hName => ?_⟩
  · refine textsPrintable_settle fun token hToken => hQuiet token ?_
    exact mem_row_of_mem_elementsOf hToken hRaw [root.settled.toNode]
      (List.forall_mem_singleton.mpr hSettled) (by simpa using he)
  · change elementsNamed "body" (settle d.children) = []
    rw [elementsNamed_settle, List.map_eq_nil_iff]
    exact hHeads d hd hName

end PagePreview.Markup
