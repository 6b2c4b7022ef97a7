import PagePreview.Proofs.Markup.Growing
import PagePreview.Proofs.Markup.JoinedRow
import PagePreview.Proofs.Markup.RoundTrip

/-!
# Reading a page back that may not be printable

What the printer writes of a page is read back up to the first text in which
markup opens; behind that place anything may be read.  This file says what is
certain nevertheless about the elements of raw text of one name, such as the
scripts.

`elementsNamed_parseNodes_toHtml` splits the elements that are read back into
those that were written in front of that place and those that are found
behind it.  So none is lost or gained exactly if as many are found as were
written there (`length_descendants_toHtml_iff`).  An element that begins the
head of the page is read back as the first one, if it is written in front of
that place (`head?_descendants_toHtml`).
-/

namespace PagePreview.Markup

/-- An element with its attributes as the printer writes them. -/
def Element.written (e : Element) : Element :=
  { e with attributes := e.attributes.map Attribute.written }

section Rows

variable {name : String}

mutual
private theorem flatMap_elementsNamed_node (hRaw : isRawText name = true) : ∀ node : Node,
    node.WellFormed → node.row.flatMap (Token.elementsNamed name) =
      (node.elementsNamed name).map Element.written
  | .element n attributes children, h => by
      cases hIsRaw : isRawText n with
      | true =>
          have hContent := nodesChars_of_isRawContent (h.element.raw hIsRaw)
          have hNone := elementsNamed_of_isRawContent (h.element.raw hIsRaw) name
          rw [row_raw _ _ hIsRaw]
          by_cases hn : n = name
          · simp [Token.elementsNamed, Node.elementsNamed, hn, hNone, hContent.2.1,
              Element.written]
          · simp [Token.elementsNamed, Node.elementsNamed, hn, hNone]
      | false =>
          have hn : ¬ n = name := ne_of_isRawText hRaw hIsRaw
          cases hVoid : isVoid n with
          | true =>
              have hNil : children = [] := h.element.void hVoid
              rw [row_void _ _ hIsRaw hVoid]
              simp [Token.elementsNamed, Node.elementsNamed, elementsNamed, hn, hNil]
          | false =>
              have hChildren := flatMap_elementsNamed_row hRaw children h.children
              rw [row_filled _ _ hIsRaw hVoid]
              simp [Token.elementsNamed, Node.elementsNamed, hn, hChildren]
  | .text _, _ => rfl
  | .comment _, _ => rfl
/-- The elements that a row brings are those of the nodes. -/
theorem flatMap_elementsNamed_row (hRaw : isRawText name = true) : ∀ nodes : List Node,
    (∀ n ∈ nodes, n.WellFormed) → (row nodes).flatMap (Token.elementsNamed name) =
      (elementsNamed name nodes).map Element.written
  | [], _ => rfl
  | node :: rest, h => by
      obtain ⟨hNode, hRest⟩ := List.forall_mem_cons.mp h
      rw [row, List.flatMap_append, flatMap_elementsNamed_node hRaw node hNode,
        flatMap_elementsNamed_row hRaw rest hRest, elementsNamed, List.map_append]
end

/-- Joining texts touches no element. -/
theorem flatMap_elementsNamed_joinTexts (tokens : List Token) :
    (joinTexts tokens).flatMap (Token.elementsNamed name) =
      tokens.flatMap (Token.elementsNamed name) := by
  have hFront : ∀ (cs : List Char) (ts : List Token),
      (joinText cs ts).flatMap (Token.elementsNamed name) =
        ts.flatMap (Token.elementsNamed name) := by
    intro cs ts
    unfold joinText
    split
    · rfl
    · split <;> simp [Token.elementsNamed]
  induction tokens with
  | nil => rfl
  | cons token tokens ih =>
      cases token with
      | text cs => rw [joinTexts, hFront, ih]; rfl
      | comment _ | declaration _ | startTag _ _ | endTag _ | rawText _ _ _ =>
          rw [joinTexts_cons rfl, List.flatMap_cons, List.flatMap_cons, ih]

/-- A token that is written is one that may be read. -/
theorem Token.Writable.wellFormed {token : Token} (h : token.Writable) (foreign : Bool) :
    token.WellFormed foreign := by
  cases token with
  | text _ => trivial
  | comment _ => exact h
  | declaration _ =>
      obtain ⟨mark, inner, rfl, hMark, hInner, -⟩ := h
      have hBracket : mark ≠ '>' := by
        obtain rfl | rfl := hMark <;> decide
      change '>' ∉ (('<' :: mark :: inner) ++ ['>']).dropLast
      rw [List.dropLast_concat]
      simp [hInner, hBracket.symm]
  | startTag _ _ => exact ⟨h.1, h.2.2.1, fun hRaw => absurd hRaw (by simp [h.2.1])⟩
  | endTag _ => trivial
  | rawText _ _ _ => exact ⟨h.1, h.2.1, h.2.2.1, h.2.2.2.2⟩

end Rows

/-! ## Rows that begin with a head -/

/-- A token that brings nothing but texts and comments. -/
def Token.isLight : Token → Bool
  | .text _ => true
  | .comment _ => true
  | .declaration _ => true
  | .startTag _ _ => false
  | .endTag _ => false
  | .rawText _ _ _ => false

theorem row_toNode_of_filled {e : Element} {name : String} (hName : e.name = name)
    (hRaw : isRawText name = false) (hVoid : isVoid name = false) :
    e.toNode.row = .startTag name ⟨e.attributes.map Attribute.written, false⟩ ::
      (row e.children ++ [.endTag name]) := by
  subst hName
  exact row_filled e.attributes e.children hRaw hVoid

theorem row_cons (node : Node) (rest : List Node) : row (node :: rest) = node.row ++ row rest :=
  rfl

theorem row_append (xs ys : List Node) : row (xs ++ ys) = row xs ++ row ys := by
  induction xs with
  | nil => rfl
  | cons node xs ih => simp [row, ih]

theorem Document.row_of_html {d : Document} (hName : d.root.name = "html") :
    d.row = d.doctypeRow ++ .startTag "html" ⟨d.root.attributes.map Attribute.written, false⟩ ::
      (Markup.row d.root.children ++ [.endTag "html"]) := by
  rw [Document.row, row_cons, row_toNode_of_filled hName (by decide) (by decide), Markup.row,
    List.append_nil]

/-- The row of a page around the content of its head. -/
theorem Document.row_of_head {d : Document} (hName : d.root.name = "html") {head : Element}
    {before after : List Node} (hChildren : d.root.children = before ++ head.toNode :: after)
    (hHead : head.name = "head") :
    d.row = d.doctypeRow ++ .startTag "html" ⟨d.root.attributes.map Attribute.written, false⟩ ::
      (Markup.row before ++
        .startTag "head" ⟨head.attributes.map Attribute.written, false⟩ ::
          (Markup.row head.children ++
            .endTag "head" :: (Markup.row after ++ [.endTag "html"]))) := by
  rw [row_of_html hName, hChildren, row_append, row_cons,
    row_toNode_of_filled hHead (by decide) (by decide)]
  simp only [List.append_assoc, List.cons_append, List.nil_append]

theorem isLight_row {nodes : List Node} (h : ∀ n ∈ nodes, n.isElement = false) :
    ∀ token ∈ row nodes, token.isLight = true := by
  induction nodes with
  | nil => simp [row]
  | cons node nodes ih =>
      obtain ⟨hNode, hNodes⟩ := List.forall_mem_cons.mp h
      cases node with
      | element _ _ _ => simp at hNode
      | text _ | comment _ => exact List.forall_mem_cons.mpr ⟨rfl, ih hNodes⟩

theorem isLight_joinTexts {tokens : List Token} (h : ∀ token ∈ tokens, token.isLight = true) :
    ∀ token ∈ joinTexts tokens, token.isLight = true := by
  intro token hToken
  obtain hText | hMem := mem_of_mem_joinTexts hToken
  · cases token with
    | text _ => rfl
    | comment _ | declaration _ | startTag _ _ | endTag _ | rawText _ _ _ =>
        simp [Token.isText] at hText
  · exact h token hMem

namespace Builder

/-- Light tokens open and close nothing. -/
theorem foldl_add_light {tokens : List Token} (h : ∀ token ∈ tokens, token.isLight = true)
    {b : Builder} (hNodes : ∀ n ∈ b.nodes, n.isElement = false) :
    (tokens.foldl add b).path = b.path ∧
      ∀ n ∈ (tokens.foldl add b).nodes, n.isElement = false := by
  induction tokens generalizing b with
  | nil => exact ⟨rfl, hNodes⟩
  | cons token tokens ih =>
      obtain ⟨hToken, hTokens⟩ := List.forall_mem_cons.mp h
      have hAdd : (b.add token).path = b.path ∧ ∀ n ∈ (b.add token).nodes, n.isElement = false := by
        cases token with
        | text cs =>
            refine ⟨path_addText b cs, ?_⟩
            change ∀ n ∈ (b.addText cs).nodes, n.isElement = false
            unfold addText
            split
            · next t rest hText =>
                rw [hText] at hNodes
                exact List.forall_mem_cons.mpr ⟨rfl, (List.forall_mem_cons.mp hNodes).2⟩
            · exact List.forall_mem_cons.mpr ⟨rfl, hNodes⟩
        | comment cs => exact ⟨rfl, List.forall_mem_cons.mpr ⟨rfl, hNodes⟩⟩
        | declaration cs =>
            change (b.declaration cs).path = _ ∧ ∀ n ∈ (b.declaration cs).nodes, _
            rw [path_declaration, nodes_declaration]
            exact ⟨rfl, hNodes⟩
        | startTag _ _ | endTag _ | rawText _ _ _ => simp [Token.isLight] at hToken
      rw [List.foldl_cons, ← hAdd.1]
      exact ih hTokens hAdd.2

/-- What growth keeps is kept by a row of tokens. -/
theorem foldl_add_preserves {P : List Node → Prop}
    (hGrows : ∀ {nodes grown : List Node}, Grows nodes grown → P nodes → P grown)
    {tokens : List Token} {b : Builder} (h : P b.finish) : P (tokens.foldl add b).finish := by
  induction tokens generalizing b with
  | nil => exact h
  | cons token tokens ih => exact ih (hGrows (Grows.finish_add b token) h)

theorem add_startTag_of_filled (b : Builder) {name : String} (hBody : name ≠ "body")
    (hVoid : isVoid name = false) (attributes : List Attribute) :
    b.add (.startTag name ⟨attributes, false⟩) = b.openElement name attributes := by
  change b.startTag name ⟨attributes, false⟩ = _
  rw [startTag_of_no_head (fun h => absurd h hBody), hVoid, if_neg Bool.false_ne_true]

/-- A row that begins with a head and an element in it. -/
theorem hasInHead_of_row (name : String) {front between : List Token} (rest : List Token)
    (hFront : ∀ token ∈ front, token.isLight = true)
    (hBetween : ∀ token ∈ between, token.isLight = true)
    (root head attributes : List Attribute) (cs : List Char) :
    HasInHead name ((front ++ .startTag "html" ⟨root, false⟩ ::
      (between ++ .startTag "head" ⟨head, false⟩ ::
        .rawText name attributes cs :: rest)).foldl add {}).finish := by
  obtain ⟨hPath₁, hNodes₁⟩ := foldl_add_light hFront (b := {}) (by simp)
  let b₁ := front.foldl add {}
  have hRoot : b₁.add (.startTag "html" ⟨root, false⟩) = b₁.openElement "html" root :=
    add_startTag_of_filled b₁ (by decide) (by decide) root
  obtain ⟨hPath₂, hNodes₂⟩ := foldl_add_light hBetween (b := b₁.openElement "html" root)
    (by simp [openElement])
  let b₂ := between.foldl add (b₁.openElement "html" root)
  have hHead : b₂.add (.startTag "head" ⟨head, false⟩) = b₂.openElement "head" head :=
    add_startTag_of_filled b₂ (by decide) (by decide) head
  rw [List.foldl_append, List.foldl_cons, hRoot, List.foldl_append, List.foldl_cons, hHead,
    List.foldl_cons]
  refine foldl_add_preserves (fun hGrows h => h.grows hGrows) ?_
  let e := Node.element name attributes (textChildren (String.ofList cs))
  refine ⟨b₁.nodes.reverse, ⟨"html", root, b₂.nodes.reverse ++ [.element "head" head [e]]⟩, [],
    b₂.nodes.reverse, ⟨"head", head, [e]⟩, [], breakAt?_eq_some_iff.mpr ⟨?_, rfl, ?_⟩,
    breakAt?_eq_some_iff.mpr ⟨rfl, rfl, ?_⟩, ?_⟩
  · have hPath : b₂.path = [⟨"html", root, b₁.nodes⟩] := by
      change b₂.path = _ at hPath₂
      rw [hPath₂]
      change _ :: b₁.path = _
      rw [hPath₁]
    change (closeAll (_ :: b₂.path) [e]).reverse = _
    rw [hPath]
    simp [closeAll, Element.toNode]
  · intro n hn
    exact isNamed_eq_false_of_not_isElement (hNodes₁ n (List.mem_reverse.mp hn)) "html"
  · intro n hn
    exact isNamed_eq_false_of_not_isElement (hNodes₂ n (List.mem_reverse.mp hn)) "head"
  · simp [Element.descendants, elementsNamed, Node.elementsNamed, e]

end Builder

theorem elementsNamed_eq_nil_of_isLight {token : Token} (h : token.isLight = true)
    (name : String) : token.elementsNamed name = [] := by
  cases token with
  | text _ | comment _ | declaration _ => rfl
  | startTag _ _ | endTag _ | rawText _ _ _ => simp [Token.isLight] at h

/-- A part of a row that goes on while a condition holds ends before a certain token, or it goes
on behind that. -/
theorem takeWhile_append_cons_cases {p : Token → Bool} {token : Token} (h : p token = true)
    (xs ys : List Token) :
    (xs ++ token :: ys).takeWhile p = xs.takeWhile p ∨
      (xs ++ token :: ys).takeWhile p = xs ++ token :: ys.takeWhile p := by
  rw [List.takeWhile_append]
  split
  · exact Or.inr (by rw [List.takeWhile_cons_of_pos h])
  · exact Or.inl rfl

namespace Document

/-- What reading guarantees of a page. -/
structure WellFormed (d : Document) : Prop where
  doctype : ∀ t, d.doctype = some t → t.BracketFree
  root : d.root.toNode.WellFormed

/-- The builder that has read a page up to the first text in which markup opens. -/
def quietBuilder (d : Document) : Builder := (quietPart d.row).foldl Builder.add {}

section Reread

variable {d : Document} {name : String}

theorem WellFormed.writable_row (h : d.WellFormed) : ∀ token ∈ d.row, token.Writable := by
  have hRoot := Markup.writable_row [d.root.toNode] (List.forall_mem_singleton.mpr h.root)
  unfold row doctypeRow
  split
  · next t ht =>
      have hDeclaration : (Token.declaration t.chars).Writable :=
        (h.doctype t ht).isDeclarationText
      have hLine : (Token.text ['\n']).Writable := trivial
      simpa [or_imp, forall_and] using And.intro hDeclaration (And.intro hLine hRoot)
  · exact hRoot

/-- Reading a printed page is reading on from where the quiet part ends. -/
theorem WellFormed.parseNodes_toHtml (h : d.WellFormed) :
    (parseNodes d.toHtml).2 = (d.quietBuilder.run (rowChars (loudPart d.row))).finish := by
  have hChars : d.toHtml.toList = rowChars d.row := by
    rw [rowChars_row h.root, toHtml, String.toList_ofList]
  unfold parseNodes
  rw [hChars, run_quietPart h.writable_row]
  rfl

/-- What has been read of the quiet part: the builder is well formed, and the elements of a name
are those that are written there. -/
theorem WellFormed.quietBuilder (h : d.WellFormed) (hRaw : isRawText name = true) :
    d.quietBuilder.WellFormed ∧
      elementsNamed name d.quietBuilder.finish =
        (quietPart d.row).flatMap (Token.elementsNamed name) := by
  have hTokens : ∀ token ∈ quietPart d.row, ∀ foreign, token.WellFormed foreign :=
    fun token hToken => (writable_joinTexts h.writable_row token
      ((List.takeWhile_sublist _).mem hToken)).wellFormed
  have hEmpty : Builder.WellFormed {} := ⟨by simp, by simp⟩
  obtain ⟨hWellFormed, hElements⟩ := Builder.elementsNamed_finish_foldl hRaw hTokens hEmpty
  exact ⟨hWellFormed, hElements⟩

/-- **The elements of a printed page** are those of its quiet part and those that are found when
reading on. -/
theorem WellFormed.elementsNamed_parseNodes_toHtml (h : d.WellFormed)
    (hRaw : isRawText name = true) :
    elementsNamed name (parseNodes d.toHtml).2 =
      (quietPart d.row).flatMap (Token.elementsNamed name) ++
        d.quietBuilder.found name (rowChars (loudPart d.row)) := by
  obtain ⟨hWellFormed, hElements⟩ := h.quietBuilder hRaw
  rw [h.parseNodes_toHtml, Builder.elementsNamed_finish_run hRaw hWellFormed, hElements]

/-- The elements of a page are written in the one part or in the other. -/
theorem WellFormed.map_written_descendants (h : d.WellFormed) (hRaw : isRawText name = true)
    (hRoot : d.root.name ≠ name) :
    (d.root.descendants name).map Element.written =
      (quietPart d.row).flatMap (Token.elementsNamed name) ++
        (loudPart d.row).flatMap (Token.elementsNamed name) := by
  have hDoctype : d.doctypeRow.flatMap (Token.elementsNamed name) = [] := by
    unfold doctypeRow
    split <;> rfl
  have hNodes := flatMap_elementsNamed_row hRaw [d.root.toNode]
    (List.forall_mem_singleton.mpr h.root)
  rw [elementsNamed_toNode_cons hRoot] at hNodes
  rw [← List.flatMap_append, quietPart_append_loudPart, flatMap_elementsNamed_joinTexts, row,
    List.flatMap_append, hDoctype, hNodes]
  simp [elementsNamed]

/-- Normalising loses no element of a name and adds none. -/
theorem length_descendants_parse (hRaw : isRawText name = true) (html : String) :
    ((parse html).root.descendants name).length =
      (elementsNamed name (parseNodes html).2).length := by
  obtain ⟨lead, hSource, hPage⟩ := elementsNamed_normalize (ne_of_isRawText hRaw (by decide))
    (ne_of_isRawText hRaw (by decide)) (ne_of_isRawText hRaw (by decide)) (parseNodes html).2
  change ((normalize (parseNodes html).2).descendants name).length = _
  rw [hPage, hSource]
  simp only [List.length_append]
  omega

/-- **No element of a name is lost or gained by printing and reading back** exactly if as many are
found behind the first text in which markup opens as are written there. -/
theorem WellFormed.length_descendants_toHtml_iff (h : d.WellFormed)
    (hRaw : isRawText name = true) (hRoot : d.root.name ≠ name) :
    ((parse d.toHtml).root.descendants name).length = (d.root.descendants name).length ↔
      (d.quietBuilder.found name (rowChars (loudPart d.row))).length =
        ((loudPart d.row).flatMap (Token.elementsNamed name)).length := by
  have hWritten := congrArg List.length (h.map_written_descendants hRaw hRoot)
  rw [List.length_map, List.length_append] at hWritten
  rw [length_descendants_parse hRaw, h.elementsNamed_parseNodes_toHtml hRaw, hWritten,
    List.length_append]
  omega

/-! ## An element at the front of the head -/

/-- The root is an `html` element, and the first thing in it but texts and comments is a head that
begins with that element. -/
structure HeadBegins (d : Document) (e : Element) : Prop where
  root : d.root.name = "html"
  exists_head : ∃ (before : List Node) (head : Element) (after more : List Node),
    d.root.children = before ++ head.toNode :: after ∧ head.name = "head" ∧
      (∀ n ∈ before, n.isElement = false) ∧ head.children = e.toNode :: more

theorem HeadBegins.exists_descendants {e : Element} (h : d.HeadBegins e)
    (hRaw : isRawText e.name = true) : ∃ others, d.root.descendants e.name = e :: others := by
  obtain ⟨before, head, after, more, hChildren, hName, hBefore, hFirst⟩ := h.exists_head
  have hHead : head.name ≠ e.name := ne_of_isRawText hRaw (by rw [hName]; decide)
  have hSelf : elementsNamed e.name head.children =
      e :: (elementsNamed e.name e.children ++ elementsNamed e.name more) := by
    simp [hFirst, elementsNamed, Element.toNode, Node.elementsNamed]
  refine ⟨elementsNamed e.name e.children ++ elementsNamed e.name more ++
    elementsNamed e.name after, ?_⟩
  rw [Element.descendants, hChildren, elementsNamed_append, elementsNamed_eq_nil hBefore,
    List.nil_append, elementsNamed_toNode_cons hHead, Element.descendants, hSelf, List.cons_append]

/-- The row of such a page, its texts joined. -/
theorem HeadBegins.joinTexts_row {e : Element} (h : d.HeadBegins e)
    (hRaw : isRawText e.name = true) :
    ∃ (front between rest : List Token) (root head attributes : List Attribute) (cs : List Char),
      (∀ token ∈ front, token.isLight = true) ∧ (∀ token ∈ between, token.isLight = true) ∧
        joinTexts d.row =
          (front ++ .startTag "html" ⟨root, false⟩ :: (between ++ [.startTag "head" ⟨head, false⟩])) ++
            .rawText e.name attributes cs :: rest := by
  obtain ⟨before, head, after, more, hChildren, hName, hBefore, hFirst⟩ := h.exists_head
  have hDoctype : ∀ token ∈ d.doctypeRow, token.isLight = true := by
    unfold doctypeRow
    split <;> simp [Token.isLight]
  let rest := Markup.row more ++ .endTag "head" :: (Markup.row after ++ [.endTag "html"])
  have hFirstRow : Markup.row head.children =
      .rawText e.name (e.attributes.map Attribute.written) (textOf e.children).toList ::
        Markup.row more := by
    rw [hFirst, row_cons, Element.toNode, row_raw e.attributes e.children hRaw]
    rfl
  rw [row_of_head h.root hChildren hName, hFirstRow, List.cons_append,
    joinTexts_append_cons rfl, joinTexts_append_cons rfl, joinTexts_cons rfl]
  refine ⟨joinTexts d.doctypeRow, joinTexts (Markup.row before), joinTexts rest,
    d.root.attributes.map Attribute.written, head.attributes.map Attribute.written,
    e.attributes.map Attribute.written, (textOf e.children).toList, isLight_joinTexts hDoctype,
    isLight_joinTexts (isLight_row hBefore), ?_⟩
  simp only [rest, List.append_assoc, List.cons_append, List.nil_append]

/-- If any element of its name is written in the quiet part, then the one that begins the head is,
and it has been read into the head of the root. -/
theorem HeadBegins.hasInHead {e : Element} (h : d.HeadBegins e) (hRaw : isRawText e.name = true)
    (hQuiet : (quietPart d.row).flatMap (Token.elementsNamed e.name) ≠ []) :
    HasInHead e.name d.quietBuilder.finish := by
  obtain ⟨front, between, rest, root, head, attributes, cs, hFront, hBetween, hRow⟩ :=
    h.joinTexts_row hRaw
  let start := front ++
    .startTag "html" ⟨root, false⟩ :: (between ++ [.startTag "head" ⟨head, false⟩])
  have hCases : quietPart d.row = start.takeWhile (fun token => !token.opens) ∨
      ∃ more, quietPart d.row = start ++ .rawText e.name attributes cs :: more := by
    rw [quietPart, hRow]
    exact (takeWhile_append_cons_cases rfl start rest).imp_right fun hEq => ⟨_, hEq⟩
  obtain hShort | ⟨more, hLong⟩ := hCases
  · -- nothing of that name is written in front of the element
    refine absurd (List.flatMap_eq_nil_iff.mpr fun token hToken => ?_) hQuiet
    rw [hShort] at hToken
    have hStart := (List.takeWhile_sublist _).mem hToken
    have hHtml : "html" ≠ e.name := ne_of_isRawText hRaw (by decide)
    have hHead : "head" ≠ e.name := ne_of_isRawText hRaw (by decide)
    simp only [start, List.mem_append, List.mem_cons, List.not_mem_nil, or_false] at hStart
    rcases hStart with hLight | rfl | hLight | rfl
    · exact elementsNamed_eq_nil_of_isLight (hFront token hLight) e.name
    · simp [Token.elementsNamed, hHtml]
    · exact elementsNamed_eq_nil_of_isLight (hBetween token hLight) e.name
    · simp [Token.elementsNamed, hHead]
  · have hBuilt := Builder.hasInHead_of_row e.name more hFront hBetween root head attributes cs
    have hEq : quietPart d.row = front ++ .startTag "html" ⟨root, false⟩ ::
        (between ++ .startTag "head" ⟨head, false⟩ :: .rawText e.name attributes cs :: more) := by
      simp [hLong, start]
    rw [quietBuilder, hEq]
    exact hBuilt

/-- **The element that begins the head is read back as the first one of its name**, if any is
written in front of the first text in which markup opens. -/
theorem WellFormed.head?_descendants_toHtml {e : Element} (h : d.WellFormed)
    (hHead : d.HeadBegins e) (hRaw : isRawText e.name = true)
    (hQuiet : (quietPart d.row).flatMap (Token.elementsNamed e.name) ≠ []) :
    ((parse d.toHtml).root.descendants e.name).head? = some e.written := by
  have hRoot : d.root.name ≠ e.name := ne_of_isRawText hRaw (by rw [hHead.root]; decide)
  obtain ⟨others, hOthers⟩ := hHead.exists_descendants hRaw
  have hWritten := h.map_written_descendants hRaw hRoot
  have hInHead : HasInHead e.name (parseNodes d.toHtml).2 := by
    rw [h.parseNodes_toHtml]
    exact (hHead.hasInHead hRaw hQuiet).run _
  obtain ⟨first, quiet, hFirst⟩ := List.exists_cons_of_ne_nil hQuiet
  calc ((normalize (parseNodes d.toHtml).2).descendants e.name).head?
      = (elementsNamed e.name (parseNodes d.toHtml).2).head? :=
        hInHead.head?_normalize (ne_of_isRawText hRaw (by decide))
          (ne_of_isRawText hRaw (by decide)) (ne_of_isRawText hRaw (by decide))
    _ = some first := by rw [h.elementsNamed_parseNodes_toHtml hRaw, hFirst]; rfl
    _ = some e.written := by
        rw [hOthers, hFirst, List.map_cons, List.cons_append] at hWritten
        rw [(List.cons.inj hWritten).1]

end Reread

end Document

end PagePreview.Markup
