import PagePreview.Proofs.Markup.HeadDepth
import PagePreview.Proofs.Markup.SettledTree

/-!
# Printing a page once more

A page that has been printed and read back is printed to the same text again,
unless one of two things happens.  Markup may open in a text of the page: a
tag that never ended is kept as a text, and it ends as soon as more is printed
behind it.  Or a body may stand in a head, where normalising has put it: on
paper it ends the head.

`root_parse_toHtml_iff` shows that nothing else can go wrong, and
`exists_chars_parse_toHtml_ne` that both do.  Without markup in its texts a
page is read token by token from its joined row.  If no body stands in a head
the settled root is printable, so it is what the reader builds
(`WellFormed.root_parse_toHtml`).  Otherwise the reader finds fewer heads
around bodies than were printed, and normalising a root that begins with its
head brings none back (`WellFormed.descendants_eq_nil_of_root_parse_toHtml`).
-/

namespace PagePreview.Markup

/-- **Settling changes nothing about what is written.** -/
theorem chars_settled {e : Element} (h : e.toNode.WellFormed) : e.settled.chars = e.chars := by
  have hSettled : e.settled.toNode.WellFormed := h.settle
  rw [chars_eq_rowChars hSettled, chars_eq_rowChars h, ← settle_singleton, row_settle,
    rowChars_joinTexts]

theorem Element.HeadFirst.settled {e : Element} (h : e.HeadFirst) : e.settled.HeadFirst := by
  obtain ⟨before, head, after, hBreak, hBefore⟩ := h
  obtain ⟨hChildren, hName, -⟩ := breakAt?_eq_some_iff.mp hBreak
  refine .of_eq (settle before) head.settled (settle after) ?_ hName fun n hn => ?_
  · change settle e.children = _
    rw [hChildren, settle_append_cons rfl, settle_toNode]
  · cases n with
    | text _ | comment _ => rfl
    | element _ _ _ =>
        obtain ⟨m, hm, hEq⟩ := exists_settle_of_mem hn rfl
        have hNode := hBefore m hm
        cases m with
        | element _ _ _ => simp at hNode
        | text _ | comment _ => exact Node.noConfusion hEq

namespace Document

variable {d : Document}

theorem joinTexts_row (hName : d.root.name = "html") :
    joinTexts d.row = d.doctypeRow ++ Markup.row [d.root.settled.toNode] := by
  have hDoctype : joinTexts d.doctypeRow = d.doctypeRow := by
    unfold doctypeRow
    split <;> rfl
  have hRoot : Markup.row [d.root.toNode] =
      .startTag "html" ⟨d.root.attributes.map Attribute.written, false⟩ ::
        (Markup.row d.root.children ++ [.endTag "html"]) := by
    rw [row_cons, row_toNode_of_filled hName (by decide) (by decide), Markup.row, List.append_nil]
  rw [← settle_singleton, row_settle, row, hRoot, joinTexts_append_cons rfl, joinTexts_cons rfl,
    hDoctype]

/-- **A page in whose texts no markup opens is read token by token**: what is read of its text is
what the row of its settled root builds behind a blank text. -/
theorem WellFormed.parseNodes_of_isQuiet (h : d.WellFormed) (hName : d.root.name = "html")
    (hQuiet : isQuiet d.row = true) :
    ∃ doctype before, (∀ n ∈ before, n.isElement = false ∧ n.isContent = false) ∧
      (parseNodes d.toHtml).2 =
        ((Markup.row [d.root.settled.toNode]).foldl Builder.add
          { doctype, nodes := before }).finish := by
  obtain ⟨before, hBefore, hBuilt⟩ := foldl_add_doctypeRow d
  have hLoud : loudPart d.row = [] := loudPart_eq_nil_iff.mpr hQuiet
  have hAll : quietPart d.row = joinTexts d.row := by
    rw [← quietPart_append_loudPart, hLoud, List.append_nil]
  refine ⟨d.doctype.bind fun t => Doctype.ofDeclaration? t.chars, before, hBefore, ?_⟩
  rw [h.parseNodes_toHtml, hLoud, rowChars_nil, Builder.run_nil, Document.quietBuilder, hAll,
    joinTexts_row hName, List.foldl_append, hBuilt]

/-- **A page with no body in a head is read back as its settled root.** -/
theorem WellFormed.root_parse_toHtml (h : d.WellFormed) (hName : d.root.name = "html")
    (hHead : d.root.HeadFirst) (hQuiet : isQuiet d.row = true)
    (hHeads : ∀ head ∈ d.root.descendants "head", head.descendants "body" = []) :
    (parse d.toHtml).root = d.root.settled := by
  have hTokens : ∀ token ∈ Markup.row [d.root.settled.toNode], token.opens = false := by
    intro token hToken
    refine isQuiet_iff.mp hQuiet token ?_
    rw [joinTexts_row hName]
    exact List.mem_append_right _ hToken
  have hBodies : ∀ e ∈ d.root.toNode.elements, e.name = "head" → e.descendants "body" = [] := by
    intro e he hIsHead
    obtain rfl | he := List.mem_cons.mp he
    · rw [hName] at hIsHead
      exact absurd hIsHead (by decide)
    · exact hHeads e (mem_elementsNamed.mpr ⟨he, hIsHead⟩)
  have hPrintable : (⟨none, d.root.settled⟩ : Document).Printable :=
    ⟨by simp, printable_settled h.root hTokens hBodies, hName, hHead.settled⟩
  obtain ⟨doctype, before, hBefore, hNodes⟩ := h.parseNodes_of_isQuiet hName hQuiet
  have hBuilt : (parseNodes d.toHtml).2 = before.reverse ++ [d.root.settled.toNode] := by
    rw [hNodes, hPrintable.foldl_add_root doctype before]
    simp [Builder.finish, Builder.closeAll]
  change normalize (parseNodes d.toHtml).2 = d.root.settled
  rw [hBuilt]
  exact normalize_of_headFirst hHead.settled hName fun n hn =>
    (hBefore n (List.mem_reverse.mp hn)).2

end Document

/-! ## Bodies inside heads -/

/-- The first `html` element begins with its head, and nothing that matters stands in front of
it. -/
def RootFirst (nodes : List Node) : Prop :=
  ∃ before root after, breakAt? "html" nodes = some (before, root, after) ∧ root.HeadFirst ∧
    ∀ n ∈ before, n.isContent = false

theorem RootFirst.grows {nodes grown : List Node} (hGrows : Grows nodes grown)
    (h : RootFirst nodes) : RootFirst grown := by
  obtain ⟨before, root, after, hRoot, ⟨kept, head, rest, hHead, hKept⟩, hBefore⟩ := h
  obtain ⟨children, after', hInRoot, hRoot'⟩ := hGrows.breakAt? hRoot
  obtain ⟨inHead, rest', -, hHead'⟩ := hInRoot.breakAt? hHead
  exact ⟨before, _, after', hRoot', ⟨kept, _, rest', hHead', hKept⟩, hBefore⟩

/-- The row of a root that begins with its head is read back as such. -/
theorem rootFirst_foldl_row {root : Element} (hName : root.name = "html") (hHead : root.HeadFirst)
    {b : Builder} (hPath : b.path = [])
    (hBefore : ∀ n ∈ b.nodes, n.isElement = false ∧ n.isContent = false) :
    RootFirst ((row [root.toNode]).foldl Builder.add b).finish := by
  obtain ⟨kept, head, after, hBreak, hKept⟩ := hHead
  obtain ⟨hChildren, hIsHead, -⟩ := breakAt?_eq_some_iff.mp hBreak
  let inRoot := b.openElement "html" (root.attributes.map Attribute.written)
  let inFront := (row kept).foldl Builder.add inRoot
  let inHead := inFront.openElement "head" (head.attributes.map Attribute.written)
  obtain ⟨hFrontPath, hFrontNodes⟩ := Builder.foldl_add_light (isLight_row hKept) (b := inRoot)
    (by simp [inRoot, Builder.openElement])
  have hRow : ∃ rest : List Token,
      (row [root.toNode]).foldl Builder.add b = rest.foldl Builder.add inHead := by
    refine ⟨row head.children ++ .endTag "head" :: (row after ++ [.endTag "html"]), ?_⟩
    rw [row_cons, row_toNode_of_filled hName (by decide) (by decide), hChildren, row_append,
      row_cons, row_toNode_of_filled hIsHead (by decide) (by decide)]
    have hHtml : b.add (.startTag "html" ⟨root.attributes.map Attribute.written, false⟩) = inRoot :=
      Builder.add_startTag_of_filled b (by decide) (by decide) _
    have hInside :
        inFront.add (.startTag "head" ⟨head.attributes.map Attribute.written, false⟩) = inHead :=
      Builder.add_startTag_of_filled inFront (by decide) (by decide) _
    simp only [row, List.append_nil, List.cons_append, List.append_assoc, List.foldl_cons,
      List.foldl_append, List.nil_append, hHtml]
    rw [hInside]
  obtain ⟨rest, hRest⟩ := hRow
  rw [hRest]
  refine Builder.foldl_add_preserves (fun hGrows h => RootFirst.grows hGrows h) ?_
  refine ⟨b.nodes.reverse, ⟨"html", root.attributes.map Attribute.written,
    inFront.nodes.reverse ++ [.element "head" (head.attributes.map Attribute.written) []]⟩, [],
    breakAt?_eq_some_iff.mpr ⟨?_, rfl, fun n hn => ?_⟩,
    .of_eq inFront.nodes.reverse ⟨"head", head.attributes.map Attribute.written, []⟩ [] rfl rfl
      fun n hn => hFrontNodes n (List.mem_reverse.mp hn),
    fun n hn => (hBefore n (List.mem_reverse.mp hn)).2⟩
  · have hOpen : inFront.path = [⟨"html", root.attributes.map Attribute.written, b.nodes⟩] := by
      have hSame : inFront.path = inRoot.path := hFrontPath
      rw [hSame]
      change _ :: b.path = _
      rw [hPath]
    change (Builder.closeAll (_ :: inFront.path) []).reverse = _
    rw [hOpen]
    simp [Builder.closeAll, Element.toNode]
  · exact isNamed_eq_false_of_not_isElement (hBefore n (List.mem_reverse.mp hn)).1 "html"

namespace Document

variable {d : Document}

/-- **A page with a body in a head is not read back as its settled root**: fewer heads stand around
the bodies that are read. -/
theorem WellFormed.descendants_eq_nil_of_root_parse_toHtml (h : d.WellFormed)
    (hName : d.root.name = "html") (hHead : d.root.HeadFirst) (hQuiet : isQuiet d.row = true)
    (hRead : (parse d.toHtml).root = d.root.settled) :
    ∀ head ∈ d.root.descendants "head", head.descendants "body" = [] := by
  intro head hMem
  by_contra hBody
  obtain ⟨hMem, hIsHead⟩ := mem_elementsNamed.mp hMem
  have hSettled : d.root.settled.toNode.WellFormed := h.root.settle
  have hWritten : 0 < headDepth 0 [d.root.settled.toNode] := by
    have hBelow : head.settled.descendants "body" ≠ [] := by
      change elementsNamed "body" (settle head.children) ≠ []
      rwa [elementsNamed_settle, ne_eq, List.map_eq_nil_iff]
    have hName : head.settled.name = "head" := hIsHead
    refine headDepth_pos_of_head hName hBelow _ 0 ?_
    rw [← settle_singleton, elementsOf_settle]
    refine List.mem_map_of_mem ?_
    simpa using Or.inr hMem
  obtain ⟨doctype, before, hBefore, hNodes⟩ := h.parseNodes_of_isQuiet hName hQuiet
  have hFew : headDepth 0 (parseNodes d.toHtml).2 < headDepth 0 [d.root.settled.toNode] := by
    have hNothing : elementsNamed "body" before.reverse = [] := by
      rw [elementsNamed_eq_filter,
        elementsOf_eq_nil fun n hn => (hBefore n (List.mem_reverse.mp hn)).1]
      rfl
    have hStart : (⟨doctype, [], before⟩ : Builder).depth = 0 := headDepth_eq_zero 0 _ hNothing
    have hSinks := Builder.sinks_row [d.root.settled.toNode] ⟨doctype, [], before⟩ []
      (List.forall_mem_singleton.mpr hSettled)
    obtain ⟨hZero, -⟩ | hLess := hSinks.same_or_lt rfl
    · exact absurd hZero (Nat.ne_of_gt hWritten)
    · rw [hStart, Nat.zero_add] at hLess
      rw [hNodes]
      exact hLess
  obtain ⟨kept, root, after, hBreak, hRootHead, hKept⟩ : RootFirst (parseNodes d.toHtml).2 := by
    rw [hNodes]
    have hRoot : d.root.settled.name = "html" := hName
    exact rootFirst_foldl_row hRoot hHead.settled rfl hBefore
  have hNormalized := headDepth_normalize_le hBreak hRootHead hKept
  have hSame : (normalize (parseNodes d.toHtml).2).toNode = d.root.settled.toNode :=
    congrArg Element.toNode hRead
  rw [hSame] at hNormalized
  exact absurd hFew (Nat.not_lt.mpr hNormalized)

/-- **When printing a page changes nothing that is read back.**  If no markup opens in the texts
of a page, the page read from its text has the root that was printed, its neighbouring texts
joined and the double quotes in its attributes written as references, if and only if no body
stands in a head.  Then printing it once more gives the same text. -/
theorem root_parse_toHtml_iff (html : String) (hQuiet : isQuiet (parse html).row = true) :
    ((parse (parse html).toHtml).root = (parse html).root.settled ↔
        ∀ head ∈ (parse html).root.descendants "head", head.descendants "body" = []) ∧
      ((∀ head ∈ (parse html).root.descendants "head", head.descendants "body" = []) →
        (parse (parse html).toHtml).root.chars = (parse html).root.chars) := by
  have hPage : (parse html).WellFormed := ⟨bracketFree_parse html, wellFormed_parse html⟩
  have hName : (parse html).root.name = "html" := name_normalize (parseNodes html).2
  have hHead : (parse html).root.HeadFirst := headFirst_normalize (parseNodes html).2
  have hForward := hPage.root_parse_toHtml hName hHead hQuiet
  refine ⟨⟨hPage.descendants_eq_nil_of_root_parse_toHtml hName hHead hQuiet, hForward⟩,
    fun hHeads => ?_⟩
  rw [hForward hHeads, chars_settled hPage.root]

/-- A page with texts that meet in its head, a quote in an attribute and an end tag for nothing. -/
def settlingPage : String :=
  "x<!-- c -->y<html><p title='\"'>1 < 2</b></p></html><br>"

theorem root_parse_toHtml_settlingPage :
    isQuiet (parse settlingPage).row = true ∧
      (parse (parse settlingPage).toHtml).root.chars = (parse settlingPage).root.chars := by
  have hQuiet : isQuiet (parse settlingPage).row = true := by decide +kernel
  have hHeads : ∀ head ∈ (parse settlingPage).root.descendants "head",
      (head.descendants "body").isEmpty = true := by decide +kernel
  exact ⟨hQuiet, (root_parse_toHtml_iff settlingPage hQuiet).2 fun head hMem =>
    List.isEmpty_iff.mp (hHeads head hMem)⟩

/-- A tag without an end is printed and then ends somewhere else.  A body that stands in a head does
not stay there, even where no markup opens in any text. -/
theorem exists_chars_parse_toHtml_ne :
    (∀ head ∈ (parse "<a").root.descendants "head", (head.descendants "body").isEmpty = true) ∧
      (parse (parse "<a").toHtml).root.chars ≠ (parse "<a").root.chars ∧
      isQuiet (parse "<body></body><head></head>").row = true ∧
      (parse (parse "<body></body><head></head>").toHtml).root.chars ≠
        (parse "<body></body><head></head>").root.chars := by
  decide +kernel

end Document

end PagePreview.Markup
