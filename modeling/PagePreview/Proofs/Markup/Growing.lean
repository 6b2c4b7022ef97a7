import PagePreview.Proofs.Markup.ScriptOrder
import PagePreview.Proofs.Markup.WellFormed

/-!
# What has been read stays

A builder only adds behind what it has built.  Two views of this are proved,
each with one lemma for a token and one for a page.

For the elements of raw text of one name it is an equation: a token adds its
own element at the end and nothing else happens to the others
(`elementsNamed_finish_add`).  `Builder.found` is what a whole page adds.

For the tree it is the relation `Grows`: a forest grows along its last branch
only.  What lies beside that branch stays, and so does the place where the
first element of a name is found.  Hence an element that has been read into
the head of the root stays there (`HasInHead.run`).
-/

namespace PagePreview.Markup

/-- The element of that name that a token brings. -/
def Token.elementsNamed (name : String) : Token → List Element
  | .text _ => []
  | .comment _ => []
  | .declaration _ => []
  | .startTag n body => if n == name then [⟨n, body.attributes, []⟩] else []
  | .endTag _ => []
  | .rawText n attributes cs =>
      if n == name then [⟨n, attributes, textChildren (String.ofList cs)⟩] else []

namespace Builder

/-! ## The elements of a name -/

section Elements

variable {name : String} {b : Builder}

/-- Around the innermost open element nothing depends on what it holds. -/
theorem exists_outer (path : List OpenElement) (h : ∀ o ∈ path, o.name ≠ name) :
    ∃ outer, ∀ nodes, elementsNamed name (closeAll path nodes).reverse =
      outer ++ elementsNamed name nodes.reverse := by
  induction path with
  | nil => exact ⟨[], fun nodes => rfl⟩
  | cons o path ih =>
      obtain ⟨ho, hPath⟩ := List.forall_mem_cons.mp h
      obtain ⟨outer, hOuter⟩ := ih hPath
      refine ⟨outer ++ elementsNamed name o.before.reverse, fun nodes => ?_⟩
      rw [closeAll, hOuter, List.reverse_cons, elementsNamed_append, List.append_assoc]
      congr 2
      simp [Markup.elementsNamed, Node.elementsNamed, ho]

theorem elementsNamed_finish_addNode (h : ∀ o ∈ b.path, o.name ≠ name) (node : Node) :
    elementsNamed name (b.addNode node).finish =
      elementsNamed name b.finish ++ node.elementsNamed name := by
  obtain ⟨outer, hOuter⟩ := exists_outer b.path h
  change elementsNamed name (closeAll b.path (node :: b.nodes)).reverse = _
  rw [finish, hOuter, hOuter, List.reverse_cons, elementsNamed_append, List.append_assoc]
  simp [Markup.elementsNamed]

theorem elementsNamed_finish_addText (h : ∀ o ∈ b.path, o.name ≠ name) (cs : List Char) :
    elementsNamed name (b.addText cs).finish = elementsNamed name b.finish := by
  cases hText : b.nodes.head?.any Node.isText with
  | false =>
      rw [addText_of_not_text hText, elementsNamed_finish_addNode h]
      simp [Node.elementsNamed]
  | true =>
      obtain ⟨t, rest, hNodes⟩ := exists_text_of_head?_isText hText
      obtain ⟨outer, hOuter⟩ := exists_outer b.path h
      rw [addText_of_text hNodes, finish, finish, hOuter, hOuter, hNodes]
      simp [Markup.elementsNamed, Node.elementsNamed]

/-- **A token adds its element behind the others.** -/
theorem elementsNamed_finish_add (h : ∀ o ∈ b.path, o.name ≠ name) (token : Token) :
    elementsNamed name (b.add token).finish =
      elementsNamed name b.finish ++ token.elementsNamed name := by
  cases token with
  | text cs => simpa [Token.elementsNamed, add] using elementsNamed_finish_addText h cs
  | comment cs => exact elementsNamed_finish_addNode h _
  | declaration cs =>
      simp [add, Token.elementsNamed, finish]
  | startTag n body =>
      obtain ⟨d, hFinish, hPath, hStart⟩ := finish_startTag b n body
      change elementsNamed name (b.startTag n body).finish = _
      rw [hStart, elementsNamed_finish_addNode fun o ho => h o (hPath o ho), hFinish]
      simp [Token.elementsNamed, Node.elementsNamed, Markup.elementsNamed]
  | endTag n => simp [add, Token.elementsNamed]
  | rawText n attributes cs =>
      change elementsNamed name (b.addNode _).finish = _
      rw [elementsNamed_finish_addNode h]
      simp [Token.elementsNamed, Node.elementsNamed]

theorem WellFormed.name_ne (h : b.WellFormed) (hRaw : isRawText name = true) :
    ∀ o ∈ b.path, o.name ≠ name := by
  rintro o ho rfl
  rw [(h.path o ho).not_raw] at hRaw
  exact absurd hRaw (by simp)

/-- A row of tokens adds its elements in their order. -/
theorem elementsNamed_finish_foldl (hRaw : isRawText name = true) {tokens : List Token}
    (hTokens : ∀ token ∈ tokens, ∀ foreign, token.WellFormed foreign) (h : b.WellFormed) :
    (tokens.foldl add b).WellFormed ∧
      elementsNamed name (tokens.foldl add b).finish =
        elementsNamed name b.finish ++ tokens.flatMap (Token.elementsNamed name) := by
  induction tokens generalizing b with
  | nil => exact ⟨h, by simp⟩
  | cons token tokens ih =>
      obtain ⟨hToken, hTokens⟩ := List.forall_mem_cons.mp hTokens
      obtain ⟨hWellFormed, hElements⟩ := ih hTokens (h.add (hToken b.inForeign))
      refine ⟨hWellFormed, ?_⟩
      rw [List.foldl_cons, hElements, elementsNamed_finish_add (h.name_ne hRaw),
        List.flatMap_cons, List.append_assoc]

/-- The elements of a name that are found when a builder reads on. -/
def found (name : String) (b : Builder) (cs : List Char) : List Element :=
  (elementsNamed name (b.run cs).finish).drop (elementsNamed name b.finish).length

/-- **Reading on adds elements behind those that there are.** -/
theorem elementsNamed_finish_run (hRaw : isRawText name = true) (h : b.WellFormed)
    (cs : List Char) :
    elementsNamed name (b.run cs).finish =
      elementsNamed name b.finish ++ b.found name cs := by
  have hGrown : (b.run cs).WellFormed ∧
      ∃ more, elementsNamed name (b.run cs).finish = elementsNamed name b.finish ++ more := by
    refine run_preserves (P := fun d => d.WellFormed ∧
      ∃ more, elementsNamed name d.finish = elementsNamed name b.finish ++ more) ?_ b cs
      ⟨h, [], by simp⟩
    rintro d c cs ⟨hWellFormed, more, hMore⟩
    refine ⟨hWellFormed.add (wellFormed_next d.inForeign c cs),
      more ++ (Token.next d.inForeign c cs).1.elementsNamed name, ?_⟩
    rw [elementsNamed_finish_add (hWellFormed.name_ne hRaw), hMore, List.append_assoc]
  obtain ⟨-, more, hMore⟩ := hGrown
  simp [found, hMore]

/-- What is found is what the tokens bring that are taken off one by one. -/
theorem found_cons (hRaw : isRawText name = true) (h : b.WellFormed) (c : Char) (cs : List Char) :
    b.found name (c :: cs) =
      (Token.next b.inForeign c cs).1.elementsNamed name ++
        (b.add (Token.next b.inForeign c cs).1).found name (Token.next b.inForeign c cs).2 := by
  have hAdded := h.add (wellFormed_next b.inForeign c cs)
  have hAll := elementsNamed_finish_run hRaw h (c :: cs)
  rw [run_cons, elementsNamed_finish_run hRaw hAdded,
    elementsNamed_finish_add (h.name_ne hRaw), List.append_assoc] at hAll
  exact (List.append_cancel_left hAll).symm

end Elements

end Builder

/-! ## The tree grows along its last branch -/

/-- The second forest is the first one with something added at the end of its last branch. -/
inductive Grows : List Node → List Node → Prop where
  | refl (nodes : List Node) : Grows nodes nodes
  /-- The last text becomes longer. -/
  | text (front : List Node) (t more : String) :
      Grows (front ++ [.text t]) (front ++ [.text (t ++ more)])
  /-- A node is added. -/
  | add (front : List Node) (node : Node) : Grows front (front ++ [node])
  /-- The last element grows. -/
  | inside (front : List Node) (name : String) (attributes : List Attribute)
      {children grown : List Node} (h : Grows children grown) :
      Grows (front ++ [.element name attributes children])
        (front ++ [.element name attributes grown])

namespace Grows

/-- Growth in the innermost open element is growth of the whole forest. -/
theorem closeAll {nodes grown : List Node} (h : Grows nodes.reverse grown.reverse)
    (path : List OpenElement) :
    Grows (Builder.closeAll path nodes).reverse (Builder.closeAll path grown).reverse := by
  induction path generalizing nodes grown with
  | nil => exact h
  | cons o path ih =>
      refine ih ?_
      rw [List.reverse_cons, List.reverse_cons]
      exact inside o.before.reverse o.name o.attributes h

theorem finish_addNode (b : Builder) (node : Node) : Grows b.finish (b.addNode node).finish := by
  have hNode : Grows b.nodes.reverse (node :: b.nodes).reverse := by
    rw [List.reverse_cons]
    exact add b.nodes.reverse node
  exact closeAll hNode b.path

theorem finish_addText (b : Builder) (cs : List Char) : Grows b.finish (b.addText cs).finish := by
  cases hText : b.nodes.head?.any Node.isText with
  | false =>
      rw [Builder.addText_of_not_text hText]
      exact finish_addNode b _
  | true =>
      obtain ⟨t, rest, hNodes⟩ := exists_text_of_head?_isText hText
      rw [Builder.addText_of_text hNodes, Builder.finish, hNodes]
      refine closeAll ?_ b.path
      rw [List.reverse_cons, List.reverse_cons]
      exact text rest.reverse t (String.ofList cs)

/-- **Every token lets the tree grow.** -/
theorem finish_add (b : Builder) (token : Token) : Grows b.finish (b.add token).finish := by
  cases token with
  | text cs => exact finish_addText b cs
  | comment cs => exact finish_addNode b _
  | declaration cs =>
      have hSame : (b.add (.declaration cs)).finish = b.finish := by
        simp [Builder.add, Builder.finish]
      rw [hSame]
      exact refl b.finish
  | startTag name body =>
      obtain ⟨d, hFinish, -, hStart⟩ := Builder.finish_startTag b name body
      change Grows b.finish (b.startTag name body).finish
      rw [hStart, ← hFinish]
      exact finish_addNode d _
  | endTag name =>
      change Grows b.finish (b.close name).finish
      rw [Builder.finish_close]
      exact refl b.finish
  | rawText name attributes cs => exact finish_addNode b _

/-- What stands behind something in a forest is not empty if the last node is of another kind. -/
theorem exists_of_append_cons_eq {before after front : List Node} {e last : Node}
    (h : before ++ e :: after = front ++ [last]) :
    (after = [] ∧ e = last ∧ before = front) ∨
      ∃ mid, after = mid ++ [last] ∧ front = before ++ e :: mid := by
  obtain rfl | ⟨mid, node, rfl⟩ := List.eq_nil_or_concat after
  · obtain ⟨hFront, hLast⟩ := List.append_inj' h rfl
    exact Or.inl ⟨rfl, (List.cons.inj hLast).1, hFront⟩
  · rw [List.concat_eq_append, ← List.cons_append, ← List.append_assoc] at h
    obtain ⟨hFront, hLast⟩ := List.append_inj' h rfl
    refine Or.inr ⟨mid, ?_, hFront.symm⟩
    rw [List.concat_eq_append, (List.cons.inj hLast).1]

/-- **The first element of a name stays the first one**, and it may grow itself. -/
theorem breakAt? {name : String} {nodes grown before after : List Node} {e : Element}
    (h : Grows nodes grown) (hBreak : Markup.breakAt? name nodes = some (before, e, after)) :
    ∃ children more, Grows e.children children ∧
      Markup.breakAt? name grown = some (before, { e with children }, more) := by
  obtain ⟨hEq, hName, hBefore⟩ := breakAt?_eq_some_iff.mp hBreak
  cases h with
  | refl nodes => exact ⟨e.children, after, refl _, hBreak⟩
  | text front t more =>
      obtain ⟨-, hText, -⟩ | ⟨mid, -, rfl⟩ := exists_of_append_cons_eq hEq.symm
      · exact absurd hText (by simp [Element.toNode])
      · refine ⟨e.children, mid ++ [.text (t ++ more)], refl _, ?_⟩
        exact breakAt?_eq_some_iff.mpr ⟨by simp, hName, hBefore⟩
  | add front node =>
      refine ⟨e.children, after ++ [node], refl _, ?_⟩
      exact breakAt?_eq_some_iff.mpr ⟨by simp [hEq], hName, hBefore⟩
  | @inside front n attributes xs ys hGrows =>
      obtain ⟨rfl, hLast, rfl⟩ | ⟨mid, -, rfl⟩ := exists_of_append_cons_eq hEq.symm
      · obtain ⟨rfl, rfl, rfl⟩ := Node.element.inj hLast
        exact ⟨ys, [], hGrows, breakAt?_eq_some_iff.mpr ⟨rfl, hName, hBefore⟩⟩
      · refine ⟨e.children, mid ++ [.element n attributes ys], refl _, ?_⟩
        exact breakAt?_eq_some_iff.mpr ⟨by simp, hName, hBefore⟩

/-- No element is lost. -/
theorem elementsNamed_ne_nil {name : String} {nodes grown : List Node} (h : Grows nodes grown)
    (hSome : elementsNamed name nodes ≠ []) : elementsNamed name grown ≠ [] := by
  induction h with
  | refl nodes => exact hSome
  | text front t more => simpa [elementsNamed, Node.elementsNamed] using hSome
  | add front node => simp [hSome]
  | inside front n attributes h ih =>
      by_cases hn : n = name
      · simp [elementsNamed, Node.elementsNamed, hn]
      · have hNot : (n == name) = false := by simp [hn]
        simp only [elementsNamed_append, elementsNamed, Node.elementsNamed, hNot,
          Bool.false_eq_true, if_false, List.nil_append, List.append_nil, ne_eq,
          List.append_eq_nil_iff, not_and] at hSome ⊢
        exact fun hFront => ih (hSome hFront)

end Grows

/-! ## Elements in the head -/

/-- The head of the first `html` element holds an element of that name. -/
def HasInHead (name : String) (nodes : List Node) : Prop :=
  ∃ before html after kept head rest,
    breakAt? "html" nodes = some (before, html, after) ∧
      breakAt? "head" html.children = some (kept, head, rest) ∧ head.descendants name ≠ []

theorem HasInHead.grows {name : String} {nodes grown : List Node} (h : HasInHead name nodes)
    (hGrows : Grows nodes grown) : HasInHead name grown := by
  obtain ⟨before, html, after, kept, head, rest, hHtml, hHead, hSome⟩ := h
  obtain ⟨inRoot, after', hRoot, hHtml'⟩ := hGrows.breakAt? hHtml
  obtain ⟨inHead, rest', hInside, hHead'⟩ := hRoot.breakAt? hHead
  exact ⟨before, _, after', kept, _, rest', hHtml', hHead', hInside.elementsNamed_ne_nil hSome⟩

/-- **What has been read into the head of the root stays there.** -/
theorem HasInHead.run {name : String} {b : Builder} (h : HasInHead name b.finish)
    (cs : List Char) : HasInHead name (b.run cs).finish :=
  Builder.run_preserves (P := fun d => HasInHead name d.finish)
    (fun d c cs hd => hd.grows (Grows.finish_add d (Token.next d.inForeign c cs).1)) b cs h

/-- With an element in the head, the first one of its name stays the first one. -/
theorem HasInHead.head?_normalize {name : String} {nodes : List Node} (h : HasInHead name nodes)
    (hHtml : "html" ≠ name) (hHead : "head" ≠ name) (hBody : "body" ≠ name) :
    ((normalize nodes).descendants name).head? = (elementsNamed name nodes).head? := by
  obtain ⟨lead, hSource, hPage⟩ := elementsNamed_normalize hHtml hHead hBody nodes
  have hLead : lead ≠ [] := by
    obtain ⟨before, html, after, kept, head, rest, hBreak, hInside, hSome⟩ := h
    have hLate : behindRoot nodes = after := by rw [behindRoot, hBreak]
    have hRest : restOfRoot nodes = behindBody html.children := by rw [restOfRoot, hBreak]
    have hFew : (elementsNamed name (behindBody html.children)).length ≤
        (elementsNamed name rest).length := by
      have hBehind : behindHead html.children = rest := by rw [behindHead, hInside]
      rw [behindBody, hBehind]
      split
      · next x body y hFound => simp [elementsNamed_of_breakAt? hFound hBody]; omega
      · simp [elementsNamed]
    rintro rfl
    -- the elements in the head would be among those that the root holds behind its body
    have hLength := congrArg List.length hSource
    rw [hLate, hRest, elementsNamed_of_breakAt? hBreak hHtml, Element.descendants,
      elementsNamed_of_breakAt? hInside hHead] at hLength
    have hPositive := List.length_pos_iff.mpr hSome
    simp only [List.length_append, List.length_nil] at hLength
    omega
  obtain ⟨first, others, rfl⟩ := List.exists_cons_of_ne_nil hLead
  rw [hSource, hPage]
  rfl

end PagePreview.Markup
