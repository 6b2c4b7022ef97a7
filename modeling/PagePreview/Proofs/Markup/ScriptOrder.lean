import PagePreview.Markup.Document
import PagePreview.Proofs.Markup.RootShape

/-!
# The order of the scripts of a page

Scripts run in document order, so a page is only read faithfully if the moves
of `normalize` leave that order alone.  Three of the four moves do: into the
head from in front of it, into the head from in front of the root, and to the
end of a root without a body.  The fourth puts what follows the root at the
end of the body, and so in front of whatever the root holds behind its body.

`elementsNamed_normalize` says that this exchange of two neighbouring blocks
is all that ever happens.  The order of the source is therefore kept exactly
when the scripts of the two blocks commute, and in particular when one of
the blocks has none.
-/

namespace PagePreview.Markup

/-- The nodes of a root behind its body, the first one behind its head. -/
def behindBody (children : List Node) : List Node :=
  match breakAt? "body" (behindHead children) with
  | some (_, _, after) => after
  | none => []

/-- The nodes that the `html` element of a page holds behind its body. -/
def restOfRoot (nodes : List Node) : List Node :=
  match breakAt? "html" nodes with
  | some (_, html, _) => behindBody html.children
  | none => []

/-- The nodes of a page behind its `html` element. -/
def behindRoot (nodes : List Node) : List Node :=
  match breakAt? "html" nodes with
  | some (_, _, after) => after
  | none => []

section Order

variable {name : String}

/-- Reading off the elements of a name at a place where a list is cut. -/
theorem elementsNamed_of_breakAt? {other : String} {nodes before after : List Node}
    {e : Element} (h : breakAt? other nodes = some (before, e, after)) (hName : other ≠ name) :
    elementsNamed name nodes =
      elementsNamed name before ++ (e.descendants name ++ elementsNamed name after) := by
  obtain ⟨rfl, rfl, -⟩ := breakAt?_eq_some_iff.mp h
  rw [elementsNamed_append, elementsNamed_toNode_cons hName]

theorem elementsNamed_eq_nil {nodes : List Node} (h : ∀ n ∈ nodes, n.isElement = false) :
    elementsNamed name nodes = [] := by
  rw [elementsNamed_eq_filter, elementsOf_eq_nil h, List.filter_nil]

theorem descendants_prepend (e : Element) (nodes : List Node) :
    (e.prepend nodes).descendants name = elementsNamed name nodes ++ e.descendants name :=
  elementsNamed_append ..

theorem descendants_append (e : Element) (nodes : List Node) :
    (e.append nodes).descendants name = e.descendants name ++ elementsNamed name nodes :=
  elementsNamed_append ..

/-! ## The moves that keep the order -/

theorem descendants_ensureHead (hHead : "head" ≠ name) (html : Element) :
    (ensureHead html).descendants name = html.descendants name := by
  unfold ensureHead
  split
  · rfl
  · rw [descendants_prepend]
    simp [elementsNamed_eq_filter, hHead]

/-- Hoisting keeps the order, and it does not touch what stands behind the head. -/
theorem hoistIntoHead_ensureHead_spec (hHead : "head" ≠ name) (html : Element) :
    ∃ before head, (∀ n ∈ before, n.isElement = false) ∧
      breakAt? "head" (hoistIntoHead (ensureHead html)).children =
        some (before, head, behindHead html.children) ∧
      head.descendants name ++ elementsNamed name (behindHead html.children) =
        html.descendants name := by
  cases h : html.hasChild "head" with
  | false =>
      have hNone := hasChild_eq_false_iff.mp h
      have hBehind : behindHead html.children = html.children := by rw [behindHead, hNone]
      have hBreak : breakAt? "head" (html.prepend [.element "head" [] []]).children =
          some ([], ⟨"head", [], []⟩, html.children) :=
        breakAt?_eq_some_iff.mpr ⟨rfl, rfl, by simp⟩
      rw [ensureHead_of_not_hasChild h, hBehind]
      obtain ⟨kept, moved, hHoisted, hKept, hMoved⟩ := breakAt?_hoistIntoHead hBreak
      refine ⟨kept, _, hKept, hHoisted, ?_⟩
      rw [descendants_prepend, elementsNamed_eq_filter name moved, hMoved]
      rfl
  | true =>
      obtain ⟨before, head, after, hBreak⟩ := hasChild_eq_true_iff.mp h
      have hBehind : behindHead html.children = after := by rw [behindHead, hBreak]
      rw [ensureHead_of_hasChild h, hBehind]
      obtain ⟨kept, moved, hHoisted, hKept, hMoved⟩ := breakAt?_hoistIntoHead hBreak
      refine ⟨kept, _, hKept, hHoisted, ?_⟩
      rw [descendants_prepend, elementsNamed_eq_filter name moved, hMoved,
        ← elementsNamed_eq_filter, List.append_assoc]
      exact (elementsNamed_of_breakAt? hBreak hHead).symm

theorem descendants_hoistIntoHead (hHead : "head" ≠ name) (html : Element) :
    (hoistIntoHead html).descendants name = html.descendants name := by
  cases h : html.hasChild "head" with
  | false => rw [hoistIntoHead_of_not_hasChild h]
  | true =>
      obtain ⟨before, head, hBefore, hBreak, hSame⟩ := hoistIntoHead_ensureHead_spec hHead html
      rw [ensureHead_of_hasChild h] at hBreak
      rw [Element.descendants, elementsNamed_of_breakAt? hBreak hHead,
        elementsNamed_eq_nil hBefore, List.nil_append, hSame]

/-- A page without an `html` element keeps its order. -/
theorem descendants_wrapInHtml (hHead : "head" ≠ name) (hBody : "body" ≠ name)
    (nodes : List Node) : (wrapInHtml nodes).descendants name = elementsNamed name nodes := by
  unfold wrapInHtml
  split
  · rw [descendants_hoistIntoHead hHead]
    exact elementsNamed_filter_isContent name nodes
  · calc elementsNamed name _
        = elementsNamed name ((nodes.takeWhile Node.isHeadOnly).filter Node.isContent) ++
            elementsNamed name (nodes.dropWhile Node.isHeadOnly) := by
          simp [elementsNamed_eq_filter, hHead, hBody]
      _ = elementsNamed name nodes := by
          rw [elementsNamed_filter_isContent, ← elementsNamed_append,
            List.takeWhile_append_dropWhile]

/-! ## The move that may break it -/

/-- What is put into the body of a root comes in front of what the root holds
behind its body, and behind everything else. -/
theorem descendants_appendToBody (hBody : "body" ≠ name) {html head : Element}
    {before after : List Node}
    (hBreak : breakAt? "head" html.children = some (before, head, after))
    (hBefore : ∀ n ∈ before, n.isElement = false) (late : List Node) :
    ∃ lead, html.descendants name = lead ++ elementsNamed name (behindBody html.children) ∧
      (appendToBody html late).descendants name =
        lead ++ elementsNamed name late ++ elementsNamed name (behindBody html.children) := by
  have hBehind : behindHead html.children = after := by rw [behindHead, hBreak]
  have hInAll := breakAt?_body_of_headFirst hBreak hBefore
  cases hFound : breakAt? "body" after with
  | none =>
      have hNone : html.hasChild "body" = false :=
        hasChild_eq_false_iff.mpr (by rw [hInAll, hFound]; rfl)
      have hRest : behindBody html.children = [] := by rw [behindBody, hBehind, hFound]
      refine ⟨html.descendants name, by simp [hRest, elementsNamed], ?_⟩
      rw [appendToBody, hNone, hRest]
      simpa [elementsNamed] using descendants_append html late
  | some found =>
      obtain ⟨x, body, y⟩ := found
      rw [hFound] at hInAll
      have hSome : html.hasChild "body" = true := hasChild_eq_true_iff.mpr ⟨_, _, _, hInAll⟩
      have hBodyName : body.name = "body" := (breakAt?_eq_some_iff.mp hFound).2.1
      have hRest : behindBody html.children = y := by rw [behindBody, hBehind, hFound]
      refine ⟨elementsNamed name (before ++ head.toNode :: x) ++ body.descendants name, ?_, ?_⟩
      · rw [hRest, List.append_assoc]
        exact elementsNamed_of_breakAt? hInAll hBody
      · rw [appendToBody, hSome, if_pos rfl, hRest, Element.descendants, Element.changeChild,
          changeFirst_of_breakAt? hInAll, elementsNamed_append,
          elementsNamed_toNode_cons (by simpa [Element.append, hBodyName] using hBody),
          descendants_append]
        simp only [List.append_assoc]

/-- **What normalising does to the order of the elements of a name.**  The
elements behind the root and those that the root holds behind its body change
places; nothing else moves. -/
theorem elementsNamed_normalize (hHtml : "html" ≠ name) (hHead : "head" ≠ name)
    (hBody : "body" ≠ name) (nodes : List Node) :
    ∃ lead,
      elementsNamed name nodes =
        lead ++ elementsNamed name (restOfRoot nodes) ++
          elementsNamed name (behindRoot nodes) ∧
      (normalize nodes).descendants name =
        lead ++ elementsNamed name (behindRoot nodes) ++
          elementsNamed name (restOfRoot nodes) := by
  cases hFound : breakAt? "html" nodes with
  | none =>
      refine ⟨elementsNamed name nodes, ?_, ?_⟩
      · simp [restOfRoot, behindRoot, hFound, elementsNamed]
      · rw [normalize, hFound]
        simp [restOfRoot, behindRoot, hFound, elementsNamed, descendants_ensureHead hHead,
          descendants_wrapInHtml hHead hBody]
  | some found =>
      obtain ⟨early, html, late⟩ := found
      have hSource := elementsNamed_of_breakAt? hFound hHtml
      obtain ⟨before, head, hBefore, hBreak, hSame⟩ := hoistIntoHead_ensureHead_spec hHead html
      -- the root after the nodes in front of it have moved into its head
      let root := (hoistIntoHead (ensureHead html)).changeChild "head"
        (·.prepend (early.filter Node.isContent))
      have hRoot : breakAt? "head" root.children =
          some (before, head.prepend (early.filter Node.isContent), behindHead html.children) :=
        breakAt?_eq_some_iff.mpr ⟨changeFirst_of_breakAt? hBreak _,
          (breakAt?_eq_some_iff.mp hBreak).2.1, (breakAt?_eq_some_iff.mp hBreak).2.2⟩
      have hRootOrder : root.descendants name =
          elementsNamed name early ++ html.descendants name := by
        rw [Element.descendants, elementsNamed_of_breakAt? hRoot hHead,
          elementsNamed_eq_nil hBefore, descendants_prepend, elementsNamed_filter_isContent,
          List.nil_append, List.append_assoc, hSame]
      have hRest : behindBody root.children = behindBody html.children := by
        rw [behindBody, behindHead, hRoot, behindBody]
      obtain ⟨lead, hLead, hAppended⟩ := descendants_appendToBody hBody hRoot hBefore
        (late.filter Node.isContent)
      rw [hRest, hRootOrder] at hLead
      rw [hRest, elementsNamed_filter_isContent] at hAppended
      have hRestOfRoot : restOfRoot nodes = behindBody html.children := by
        rw [restOfRoot, hFound]
      have hBehindRoot : behindRoot nodes = late := by rw [behindRoot, hFound]
      refine ⟨lead, ?_, ?_⟩
      · rw [hSource, hRestOfRoot, hBehindRoot, ← hLead, List.append_assoc]
      · rw [normalize, hFound, hRestOfRoot, hBehindRoot, ← hAppended]
        exact descendants_ensureHead hHead _

end Order

/-- **When a page is read in the order of its source.**  Its scripts are those
of the source, and only two neighbouring blocks of them may have changed
places: the scripts behind the root, and those that the root holds behind its
body.  So the order is kept exactly when these two commute. -/
theorem scripts_parse_eq_source_iff (html : String) :
    let nodes := (parseNodes html).2
    let late := elementsNamed "script" (behindRoot nodes)
    let rest := elementsNamed "script" (restOfRoot nodes)
    (∃ lead, elementsNamed "script" nodes = lead ++ rest ++ late ∧
        (Document.parse html).scripts = lead ++ late ++ rest) ∧
      ((Document.parse html).scripts = elementsNamed "script" nodes ↔
        late ++ rest = rest ++ late) := by
  have hHtml : "html" ≠ "script" := by decide
  obtain ⟨lead, hSource, hPage⟩ := elementsNamed_normalize hHtml (by decide) (by decide)
    (parseNodes html).2
  refine ⟨⟨lead, hSource, hPage⟩, ?_⟩
  change (normalize (parseNodes html).2).descendants "script" = _ ↔ _
  rw [hPage, hSource, List.append_assoc, List.append_assoc, List.append_right_inj]

/-- A script behind the root overtakes the one that the root holds behind its body. -/
theorem scripts_parse_swapped :
    ¬ ∀ html : String,
      (Document.parse html).scripts = elementsNamed "script" (parseNodes html).2 := by
  intro h
  have hTexts := congrArg (List.map Element.text)
    (h "<html><body></body><script>1</script></html><script>2</script>")
  exact absurd hTexts (by decide +kernel)

end PagePreview.Markup
