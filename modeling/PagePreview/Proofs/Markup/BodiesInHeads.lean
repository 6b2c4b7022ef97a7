import PagePreview.Proofs.Markup.Contents
import PagePreview.Proofs.Markup.HeadDepth

/-!
# Where bodies come into heads

The start of a body ends a head that is open, so a body is read into a head only
where heads are open inside one another: the innermost one is ended, and the
others stay (`Builder.depth_startTag`).

Normalising moves nodes into the head, bodies among them, and each of them gets
one head more around it; nothing else does (`headDepth_normalize`).

`descendants_body_eq_nil_iff` puts both together and says on which pages no body
is inside a head.  Not all pages are of this kind: of a page that ends a body and
begins a head behind it, the body is moved into the head.
-/

namespace PagePreview.Markup

/-! ## One more head around everything -/

mutual
private theorem node_headDepth_succ (heads : Nat) : ∀ node : Node,
    node.headDepth (heads + 1) = node.headDepth heads + (node.elementsNamed "body").length
  | .element name attributes children => by
      have hInside := headDepth_succ (heads + if name == "head" then 1 else 0) children
      rw [Nat.add_right_comm] at hInside
      rw [Node.headDepth, Node.headDepth, Node.elementsNamed, hInside, List.length_append]
      split
      · rw [List.length_singleton]
        omega
      · rw [List.length_nil]
        omega
  | .text _ => rfl
  | .comment _ => rfl
/-- **One head more around some nodes counts once for every body.** -/
theorem headDepth_succ (heads : Nat) : ∀ nodes : List Node,
    headDepth (heads + 1) nodes = headDepth heads nodes + (elementsNamed "body" nodes).length
  | [] => rfl
  | node :: rest => by
      rw [headDepth, headDepth, elementsNamed, node_headDepth_succ heads node,
        headDepth_succ heads rest, List.length_append]
      omega
end

mutual
private theorem node_headDepth_zero_of_forall : ∀ node : Node,
    (∀ head ∈ node.elementsNamed "head", head.descendants "body" = []) → node.headDepth 0 = 0
  | .element name attributes children, h => by
      rw [Node.elementsNamed, List.forall_mem_append] at h
      rw [Node.headDepth, ite_self, Nat.zero_add, Nat.zero_add]
      cases hName : name == "head" with
      | true =>
          rw [hName, if_pos rfl, List.forall_mem_singleton] at h
          exact headDepth_eq_zero 1 children h.1
      | false => exact headDepth_zero_of_forall children h.2
  | .text _, _ => rfl
  | .comment _, _ => rfl
theorem headDepth_zero_of_forall : ∀ nodes : List Node,
    (∀ head ∈ elementsNamed "head" nodes, head.descendants "body" = []) → headDepth 0 nodes = 0
  | [], _ => rfl
  | node :: rest, h => by
      rw [elementsNamed, List.forall_mem_append] at h
      rw [headDepth, node_headDepth_zero_of_forall node h.1, headDepth_zero_of_forall rest h.2]
end

/-- Nothing is counted exactly if no body is inside a head. -/
theorem headDepth_eq_zero_iff {nodes : List Node} : headDepth 0 nodes = 0 ↔
    ∀ head ∈ elementsNamed "head" nodes, head.descendants "body" = [] := by
  refine ⟨fun h head hMem => ?_, headDepth_zero_of_forall nodes⟩
  obtain ⟨hMem, hName⟩ := mem_elementsNamed.mp hMem
  by_contra hBody
  have hCounts := headDepth_pos_of_head hName hBody nodes 0 hMem
  omega

/-! ## What is moved into the head -/

/-- The nodes that normalising moves into the head of a page. -/
def intoHead (nodes : List Node) : List Node :=
  match breakAt? "html" nodes with
  | some (before, html, _) => before ++ inFrontOfHead html.children
  | none =>
    if nodes.any (fun n => n.isNamed "head" || n.isNamed "body") then
      inFrontOfHead (nodes.filter Node.isContent)
    else nodes.takeWhile Node.isHeadOnly

/-- How many bodies there are in some nodes. -/
def bodyCount (nodes : List Node) : Nat := (elementsNamed "body" nodes).length

@[simp] theorem bodyCount_append (xs ys : List Node) :
    bodyCount (xs ++ ys) = bodyCount xs + bodyCount ys := by
  simp [bodyCount]

theorem bodyCount_filter_isContent (nodes : List Node) :
    bodyCount (nodes.filter Node.isContent) = bodyCount nodes := by
  rw [bodyCount, elementsNamed_filter_isContent, bodyCount]

/-- Where no element is, nothing is counted. -/
theorem headDepth_of_not_isElement {nodes : List Node} (h : ∀ n ∈ nodes, n.isElement = false) :
    headDepth 0 nodes = 0 ∧ bodyCount nodes = 0 := by
  have hNone : elementsNamed "body" nodes = [] := by
    rw [elementsNamed_eq_filter, elementsOf_eq_nil h, List.filter_nil]
  exact ⟨headDepth_eq_zero 0 nodes hNone, congrArg List.length hNone⟩

section Root

variable {html : Element}

theorem headDepth_withChildren (hName : html.name = "html") (children : List Node) :
    ({ html with children } : Element).toNode.headDepth 0 = headDepth 0 children := by
  simp [Element.toNode, Node.headDepth, hName]

theorem headDepth_root (hName : html.name = "html") :
    html.toNode.headDepth 0 = headDepth 0 html.children :=
  headDepth_withChildren hName html.children

/-- The head of a root counts with what is moved into it. -/
theorem headDepth_prepend_head {head : Element} (hName : head.name = "head") (moved : List Node) :
    (head.prepend moved).toNode.headDepth 0 =
      headDepth 0 moved + bodyCount moved + head.toNode.headDepth 0 := by
  simp [Element.toNode, Element.prepend, Node.headDepth, hName, headDepth_succ 0 moved, bodyCount]

theorem headDepth_ensureHead (hName : html.name = "html") :
    (ensureHead html).toNode.headDepth 0 = html.toNode.headDepth 0 := by
  cases h : html.hasChild "head" with
  | true => rw [ensureHead_of_hasChild h]
  | false =>
      have hAdded : (html.prepend [.element "head" [] []]).name = "html" := hName
      rw [ensureHead_of_not_hasChild h, headDepth_root hAdded, headDepth_root hName]
      exact Nat.zero_add _

theorem inFrontOfHead_ensureHead (html : Element) :
    inFrontOfHead (ensureHead html).children = inFrontOfHead html.children := by
  obtain ⟨-, -, -, hSame⟩ := exists_perm_ensureHead html
  exact hSame

/-- Hoisting counts the bodies that stand in front of the head. -/
theorem headDepth_hoistIntoHead (hName : html.name = "html") :
    (hoistIntoHead html).toNode.headDepth 0 =
      html.toNode.headDepth 0 + bodyCount (inFrontOfHead html.children) := by
  cases h : breakAt? "head" html.children with
  | none => simp [hoistIntoHead, inFrontOfHead, h, bodyCount, elementsNamed]
  | some found =>
      obtain ⟨before, head, after⟩ := found
      obtain ⟨hChildren, hHead, -⟩ := breakAt?_eq_some_iff.mp h
      have hFront : inFrontOfHead html.children = before := by rw [inFrontOfHead, h]
      rw [hoistIntoHead, h, hFront]
      dsimp only
      split
      · have hMoved := headDepth_prepend_head hHead (before.filter Node.isContent)
        rw [headDepth_filter_isContent, bodyCount_filter_isContent] at hMoved
        rw [headDepth_withChildren hName, headDepth_root hName, hChildren]
        simp only [headDepth_append, headDepth, hMoved]
        omega
      · next hNone =>
          have hLight : ∀ n ∈ before, n.isElement = false := by simpa using hNone
          rw [(headDepth_of_not_isElement hLight).2, Nat.add_zero]

/-- Nodes that are put into the head are counted as they were, and with every body in them. -/
theorem headDepth_changeHead (hName : html.name = "html") (hHead : html.hasChild "head" = true)
    (nodes : List Node) : (html.changeChild "head" (·.prepend nodes)).toNode.headDepth 0 =
      html.toNode.headDepth 0 + (headDepth 0 nodes + bodyCount nodes) := by
  obtain ⟨before, head, after, hBreak⟩ := hasChild_eq_true_iff.mp hHead
  obtain ⟨hChildren, hIsHead, -⟩ := breakAt?_eq_some_iff.mp hBreak
  have hMoved := headDepth_prepend_head hIsHead nodes
  rw [Element.changeChild, changeFirst_of_breakAt? hBreak, headDepth_withChildren hName,
    headDepth_root hName, hChildren]
  simp only [headDepth_append, headDepth, hMoved]
  omega

end Root

theorem headDepth_wrapInHtml {nodes : List Node} (h : breakAt? "html" nodes = none) :
    (wrapInHtml nodes).toNode.headDepth 0 = headDepth 0 nodes + bodyCount (intoHead nodes) := by
  unfold wrapInHtml intoHead
  rw [h]
  dsimp only
  split
  · rw [headDepth_hoistIntoHead rfl, headDepth_root rfl, headDepth_filter_isContent]
  · have hAll : headDepth 0 nodes = headDepth 0 (nodes.takeWhile Node.isHeadOnly) +
        headDepth 0 (nodes.dropWhile Node.isHeadOnly) := by
      rw [← headDepth_append, List.takeWhile_append_dropWhile]
    have hMoved := headDepth_succ 0 ((nodes.takeWhile Node.isHeadOnly).filter Node.isContent)
    rw [Nat.zero_add, headDepth_filter_isContent 0, ← bodyCount, bodyCount_filter_isContent]
      at hMoved
    rw [headDepth_root rfl, hAll]
    simp [headDepth, Node.headDepth, hMoved]
    omega

/-- **Normalising counts one head more for every body that it moves into the head**, and nothing
else. -/
theorem headDepth_normalize (nodes : List Node) :
    (normalize nodes).toNode.headDepth 0 = headDepth 0 nodes + bodyCount (intoHead nodes) := by
  cases h : breakAt? "html" nodes with
  | none =>
      rw [normalize, h]
      dsimp only
      rw [headDepth_ensureHead (name_wrapInHtml nodes), headDepth_wrapInHtml h]
  | some found =>
      obtain ⟨before, html, after⟩ := found
      obtain ⟨hNodes, hName, -⟩ := breakAt?_eq_some_iff.mp h
      let hoisted := hoistIntoHead (ensureHead html)
      let filled := hoisted.changeChild "head" (·.prepend (before.filter Node.isContent))
      have hHead : hoisted.HeadFirst := headFirst_hoistIntoHead (hasChild_ensureHead html)
      have hHoistedName : hoisted.name = "html" := by simp [hoisted, hName]
      have hDone : normalize nodes = appendToBody filled (after.filter Node.isContent) := by
        rw [normalize, h]
        exact ensureHead_of_hasChild ((hHead.changeHead _).appendToBody _).hasChild
      have hHoisted : hoisted.toNode.headDepth 0 =
          html.toNode.headDepth 0 + bodyCount (inFrontOfHead html.children) := by
        rw [headDepth_hoistIntoHead ((name_ensureHead html).trans hName),
          headDepth_ensureHead hName, inFrontOfHead_ensureHead]
      have hFilled := headDepth_changeHead hHoistedName hHead.hasChild
        (before.filter Node.isContent)
      rw [headDepth_filter_isContent, bodyCount_filter_isContent] at hFilled
      have hFilledName : filled.name = "html" := hHoistedName
      have hInto : intoHead nodes = before ++ inFrontOfHead html.children := by rw [intoHead, h]
      rw [hDone, headDepth_appendToBody hFilledName, headDepth_filter_isContent, hFilled, hHoisted,
        hInto, hNodes, bodyCount_append, headDepth_append, headDepth]
      omega

/-! ## What is read into heads -/

namespace Builder

/-- The tokens that a page is read as. -/
def tokens (b : Builder) : List Char → List Token
  | [] => []
  | c :: cs =>
    match _h : Token.next b.inForeign c cs with
    | (token, rest) => token :: tokens (b.add token) rest
termination_by cs => cs.length
decreasing_by
  have := Token.length_next_lt b.inForeign c cs
  rwa [_h] at this

theorem run_eq_foldl (b : Builder) (cs : List Char) : b.run cs = (b.tokens cs).foldl add b := by
  fun_induction tokens b cs with
  | case1 b => rw [run_nil, List.foldl_nil]
  | case2 b c cs token rest hNext ih => rw [run_cons, hNext, List.foldl_cons, ← ih]

/-- The tokens of a page are what the reader of tokens can give. -/
theorem wellFormed_of_mem_tokens {b : Builder} {cs : List Char} {token : Token}
    (h : token ∈ b.tokens cs) : ∃ foreign, token.WellFormed foreign := by
  fun_induction tokens b cs with
  | case1 b => exact absurd h (by simp)
  | case2 b c cs first rest hNext ih =>
      obtain rfl | hLater := List.mem_cons.mp h
      · refine ⟨b.inForeign, ?_⟩
        have hFirst := wellFormed_next b.inForeign c cs
        rwa [hNext] at hFirst
      · exact ih hLater

/-- How many open heads the start of a body leaves open. -/
def headsLeft (b : Builder) : Nat := b.openNames.count "head" - 1

theorem count_openNames_close_head (b : Builder) :
    (b.close "head").openNames.count "head" = b.headsLeft := by
  rw [headsLeft]
  by_cases hOpen : "head" ∈ b.openNames
  · obtain ⟨inner, hEq, hNot⟩ := exists_openNames_close hOpen
    rw [hEq, List.count_append, List.count_eq_zero.mpr hNot, List.count_cons_self]
    omega
  · rw [close_of_not_mem hOpen, List.count_eq_zero.mpr hOpen]

/-- A body that is read ends a head, and it is inside the other ones that are open. -/
theorem depth_startTag (b : Builder) (name : String) (body : TagBody) :
    (b.startTag name body).depth = b.depth + if name == "body" then b.headsLeft else 0 := by
  let d := if name == "body" then b.close "head" else b
  have hDepth : d.depth = b.depth := by
    simp only [d]
    split
    · exact depth_close b "head"
    · rfl
  have hHeads : (if name == "body" then d.openNames.count "head" else 0) =
      if name == "body" then b.headsLeft else 0 := by
    cases hBody : name == "body" with
    | true => simp [d, hBody, count_openNames_close_head]
    | false => rfl
  rw [← hDepth, ← hHeads]
  change (if isVoid name || (body.selfClosing && (isForeign name || d.inForeign)) then
    d.addNode (.element name body.attributes []) else d.openElement name body.attributes).depth = _
  split
  · rw [depth_addNode, Node.headDepth]
    simp [headDepth]
  · exact depth_openElement d name body.attributes


/-- How many heads stay open around the bodies that a token begins. -/
def headsAround (b : Builder) : Token → Nat
  | .startTag name _ => if name == "body" then b.headsLeft else 0
  | .text _ | .comment _ | .declaration _ | .endTag _ | .rawText .. => 0

theorem depth_add (b : Builder) {token : Token} {foreign : Bool} (h : token.WellFormed foreign) :
    (b.add token).depth = b.depth + b.headsAround token := by
  cases token with
  | text cs => exact depth_addText b cs
  | comment cs => exact depth_addNode b (.comment (String.ofList cs))
  | declaration cs =>
      have hSame : (b.declaration cs).finish = b.finish := by
        rw [finish, path_declaration, nodes_declaration, finish]
      exact congrArg (headDepth 0) hSame
  | startTag name body => exact depth_startTag b name body
  | endTag name => exact depth_close b name
  | rawText name attributes cs =>
      obtain ⟨-, hRaw, -⟩ := h
      have hName : ¬ name = "body" := (ne_of_isRawText hRaw (by decide)).symm
      have hNone : elementsNamed "body"
          [.element name attributes (textChildren (String.ofList cs))] = [] := by
        rw [elementsNamed, elementsNamed_element_of_ne hName, elementsNamed_textChildren]
        rfl
      have hNode := headDepth_eq_zero (b.openNames.count "head") _ hNone
      rw [headDepth_singleton] at hNode
      exact (depth_addNode b _).trans (congrArg (b.depth + ·) hNode)

/-- **No head is around a body that is read** exactly if no body begins where a head stays open. -/
theorem depth_foldl_add_eq_zero_iff {tokens : List Token}
    (h : ∀ t ∈ tokens, ∃ foreign, t.WellFormed foreign) (b : Builder) :
    (tokens.foldl add b).depth = 0 ↔ b.depth = 0 ∧ ∀ before body after,
      tokens = before ++ .startTag "body" body :: after →
      (before.foldl add b).openNames.count "head" ≤ 1 := by
  induction tokens generalizing b with
  | nil => simp
  | cons token tokens ih =>
      obtain ⟨⟨foreign, hToken⟩, hRest⟩ := List.forall_mem_cons.mp h
      rw [List.foldl_cons, ih hRest, depth_add b hToken, Nat.add_eq_zero_iff, and_assoc]
      refine and_congr_right fun _ => ?_
      constructor
      · rintro ⟨hFirst, hLater⟩ before body after hEq
        cases before with
        | nil =>
            obtain ⟨rfl, -⟩ := List.cons_eq_cons.mp hEq
            have hLeft : b.headsLeft = 0 := hFirst
            rw [headsLeft] at hLeft
            rw [List.foldl_nil]
            omega
        | cons first before =>
            obtain ⟨rfl, hTail⟩ := List.cons_eq_cons.mp hEq
            exact hLater before body after hTail
      · intro hAll
        refine ⟨?_, fun before body after hEq => hAll (token :: before) body after (by rw [hEq]; rfl)⟩
        cases token with
        | startTag name body =>
            rw [headsAround]
            split
            · next hBody =>
                obtain rfl := beq_iff_eq.mp hBody
                have hOne := hAll [] body tokens rfl
                rw [List.foldl_nil] at hOne
                rw [headsLeft]
                omega
            · rfl
        | text _ | comment _ | declaration _ | endTag _ | rawText _ _ _ => rfl

end Builder

namespace Document

/-- **When no body of a page is inside a head**: no body begins where more than one head is open,
and no body is moved into the head. -/
theorem descendants_body_eq_nil_iff (html : String) :
    (∀ head ∈ (parse html).root.descendants "head", head.descendants "body" = []) ↔
      (∀ before body after,
        Builder.tokens {} html.toList = before ++ .startTag "body" body :: after →
        (before.foldl Builder.add {}).openNames.count "head" ≤ 1) ∧
      elementsNamed "body" (intoHead (parseNodes html).2) = [] := by
  have hName : (parse html).root.name = "html" := name_normalize (parseNodes html).2
  have hRead : headDepth 0 (parseNodes html).2 =
      ((Builder.tokens {} html.toList).foldl Builder.add {}).depth := by
    rw [← Builder.run_eq_foldl]
    rfl
  have hRoot : headDepth 0 (parse html).root.children =
      headDepth 0 (parseNodes html).2 + bodyCount (intoHead (parseNodes html).2) := by
    rw [← headDepth_root hName]
    exact headDepth_normalize (parseNodes html).2
  have hTokens := Builder.depth_foldl_add_eq_zero_iff
    (fun t (hMem : t ∈ Builder.tokens {} html.toList) => Builder.wellFormed_of_mem_tokens hMem) {}
  rw [Element.descendants, ← headDepth_eq_zero_iff, hRoot, Nat.add_eq_zero_iff, hRead, hTokens,
    bodyCount, List.length_eq_zero_iff]
  exact and_congr_left fun _ => and_iff_right rfl

/-- A body that ends in front of a head is moved into it. -/
theorem exists_body_in_head : ¬ ∀ html : String,
    ∀ head ∈ (parse html).root.descendants "head", head.descendants "body" = [] := by
  intro h
  have hPage : ∀ head ∈ (parse "<body></body><head></head>").root.descendants "head",
      (head.descendants "body").isEmpty = true := fun head hMem =>
    List.isEmpty_iff.mpr (h _ head hMem)
  exact absurd hPage (by decide +kernel)

end Document

end PagePreview.Markup
