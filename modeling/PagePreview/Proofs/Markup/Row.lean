import PagePreview.Proofs.Markup.WellFormed
import PagePreview.Proofs.Markup.Written

/-!
# A tree as a row of tokens

The printer writes a tree from left to right, so what it writes is the text of
a row of tokens: `row` is that row and `rowChars_row` says so.  All of these
tokens but the texts are legible, and `run_row` reads a row back, if nothing
opens in its texts.

A row that is read back is added to the builder token by token.
`foldl_add_row` shows what that builds: the nodes that were written.  It takes
care of the two ways in which the builder looks beyond the token at hand.
Texts in a row become one text, and a body closes a head.
-/

namespace PagePreview.Markup

open Text

/-- An attribute as the printer writes it. -/
def Attribute.written (a : Attribute) : Attribute :=
  ⟨a.name, String.ofList (replaceAll ['"'] "&quot;".toList a.value.toList)⟩

mutual
/-- The tokens of a node. -/
def Node.row : Node → List Token
  | .element name attributes children =>
      if isRawText name then
        [.rawText name (attributes.map Attribute.written) (textOf children).toList]
      else
        .startTag name ⟨attributes.map Attribute.written, false⟩ ::
          (if isVoid name then [] else row children ++ [.endTag name])
  | .text t => [.text t.toList]
  | .comment t => [.comment t.toList]
/-- The tokens of a list of nodes. -/
def row : List Node → List Token
  | [] => []
  | node :: rest => node.row ++ row rest
end

section RowOfElement

variable {name : String} (attributes : List Attribute) (children : List Node)

theorem row_raw (hRaw : isRawText name = true) :
    (Node.element name attributes children).row =
      [.rawText name (attributes.map Attribute.written) (textOf children).toList] := by
  simp [Node.row, hRaw]

theorem row_void (hRaw : isRawText name = false) (hVoid : isVoid name = true) :
    (Node.element name attributes children).row =
      [.startTag name ⟨attributes.map Attribute.written, false⟩] := by
  simp [Node.row, hRaw, hVoid]

theorem row_filled (hRaw : isRawText name = false) (hVoid : isVoid name = false) :
    (Node.element name attributes children).row =
      .startTag name ⟨attributes.map Attribute.written, false⟩ ::
        (row children ++ [.endTag name]) := by
  simp [Node.row, hRaw, hVoid]

end RowOfElement

/-- The text of a row of tokens. -/
def rowChars (tokens : List Token) : List Char := tokens.flatMap Token.chars

@[simp] theorem rowChars_nil : rowChars [] = [] := rfl

@[simp] theorem rowChars_cons (token : Token) (tokens : List Token) :
    rowChars (token :: tokens) = token.chars ++ rowChars tokens := rfl

@[simp] theorem rowChars_append (xs ys : List Token) :
    rowChars (xs ++ ys) = rowChars xs ++ rowChars ys := List.flatMap_append

/-! ## Attributes as they are written -/

theorem not_mem_replaceFrom {c : Char} {put : List Char} (h : c ∉ put) (cs : List Char) :
    c ∉ replaceFrom [c] put 0 cs := by
  induction cs with
  | nil => simp [replaceFrom]
  | cons d cs ih =>
      simp only [replaceFrom]
      split
      · simpa [h] using ih
      · next hFront =>
          have hNe : c ≠ d := by simpa [startsWith, List.isPrefixOf] using hFront
          simpa [hNe] using ih

theorem quoteFree_written (attributes : List Attribute) :
    QuoteFree (attributes.map Attribute.written) := by
  intro a ha
  obtain ⟨b, -, rfl⟩ := List.mem_map.mp ha
  have hPut : '"' ∉ "&quot;".toList := by decide
  simpa [Attribute.written, replaceAll] using not_mem_replaceFrom hPut b.value.toList

/-- Writing an attribute once more changes nothing. -/
@[simp] theorem chars_written (a : Attribute) : a.written.chars = a.chars := by
  rw [attribute_chars_of_quoteFree (quoteFree_written [a] _ (List.mem_singleton_self _))]
  simp [Attribute.written, Attribute.chars]

theorem startTagChars_written (name : String) (attributes : List Attribute) :
    startTagChars name (attributes.map Attribute.written) = startTagChars name attributes := by
  simp [startTagChars, List.flatMap_map]

theorem AttributesWellFormed.written {attributes : List Attribute}
    (h : AttributesWellFormed attributes) :
    AttributesWellFormed (attributes.map Attribute.written) := by
  refine ⟨by simpa [Attribute.written, Function.comp_def] using h.distinct, fun a ha => ?_⟩
  obtain ⟨b, hb, rfl⟩ := List.mem_map.mp ha
  exact h.named b hb

/-- Attributes without double quotes are written as they are. -/
theorem map_written_of_quoteFree {attributes : List Attribute} (h : QuoteFree attributes) :
    attributes.map Attribute.written = attributes := by
  refine (List.map_congr_left fun a ha => ?_).trans (List.map_id _)
  simp [Attribute.written, replaceAll, replaceFrom_of_not_mem (h a ha)]

/-! ## The text of a row -/

/-- The content of an element of raw text is the text that it holds. -/
theorem nodesChars_of_isRawContent {name : String} {nodes : List Node}
    (h : isRawContent name nodes = true) :
    nodesChars nodes = (textOf nodes).toList ∧ textChildren (textOf nodes) = nodes ∧
      holdsEndTag name.toList (textOf nodes).toList = false := by
  unfold isRawContent at h
  split at h
  · exact ⟨by simp [nodesChars, textOf], rfl, rfl⟩
  · next t =>
      simp only [Bool.and_eq_true, Bool.not_eq_true'] at h
      have hText : textOf [.text t] = t := by simp [textOf]
      have hNonempty : t.isEmpty = false := by simpa using h.1
      rw [hText]
      refine ⟨by simp [nodesChars, Node.chars], ?_, h.2⟩
      simp [textChildren, hNonempty]
  · simp at h

mutual
private theorem rowChars_node : ∀ node : Node, node.WellFormed →
    rowChars node.row = node.chars
  | .element name attributes children, h => by
      have hChildren := rowChars_row children h.children
      cases hRaw : isRawText name with
      | true =>
          have hText := (nodesChars_of_isRawContent (h.element.raw hRaw)).1
          simp [row_raw _ _ hRaw, Node.chars, not_isVoid_of_isRawText hRaw, Token.chars,
            startTagChars_written, hText]
      | false =>
          cases hVoid : isVoid name with
          | true =>
              simp [row_void _ _ hRaw hVoid, Node.chars, hVoid, Token.chars,
                startTagChars_written]
          | false =>
              simp [row_filled _ _ hRaw hVoid, Node.chars, hVoid, Token.chars,
                startTagChars_written, hChildren]
  | .text _, _ => by simp [Node.row, Node.chars, Token.chars]
  | .comment _, _ => by simp [Node.row, Node.chars, Token.chars]
/-- **What the printer writes is the text of the row.** -/
theorem rowChars_row : ∀ nodes : List Node, (∀ n ∈ nodes, n.WellFormed) →
    rowChars (row nodes) = nodesChars nodes
  | [], _ => rfl
  | node :: rest, h => by
      obtain ⟨hNode, hRest⟩ := List.forall_mem_cons.mp h
      simp [row, nodesChars, rowChars_node node hNode, rowChars_row rest hRest]
end

/-- What is written of an element is the text of its row. -/
theorem chars_eq_rowChars {e : Element} (h : e.toNode.WellFormed) :
    e.chars = rowChars (row [e.toNode]) := by
  rw [rowChars_row _ (List.forall_mem_singleton.mpr h)]
  simp [nodesChars, Element.chars]

/-- A token of a row: a text, or a token that is read back. -/
def Token.Writable : Token → Prop
  | .text _ => True
  | token => token.Legible

mutual
private theorem writable_node : ∀ node : Node, node.WellFormed →
    ∀ token ∈ node.row, token.Writable
  | .element name attributes children, h => by
      have hElement := h.element
      have hWritten := hElement.attributes.written
      have hQuotes := quoteFree_written attributes
      cases hRaw : isRawText name with
      | true =>
          have hContent := (nodesChars_of_isRawContent (hElement.raw hRaw)).2.2
          rw [row_raw _ _ hRaw]
          exact List.forall_mem_singleton.mpr
            ⟨hElement.named, hRaw, hWritten, hQuotes, hContent⟩
      | false =>
          have hStart : (Token.startTag name ⟨attributes.map Attribute.written, false⟩).Writable :=
            ⟨hElement.named, hRaw, hWritten, hQuotes, rfl⟩
          have hEnd : (Token.endTag name).Writable := hElement.named
          have hChildren := writable_row children h.children
          cases hVoid : isVoid name with
          | true =>
              rw [row_void _ _ hRaw hVoid]
              exact List.forall_mem_singleton.mpr hStart
          | false =>
              rw [row_filled _ _ hRaw hVoid]
              simpa [or_imp, forall_and] using And.intro hStart (And.intro hChildren hEnd)
  | .text _, _ => by simp [Node.row, Token.Writable]
  | .comment t, h => by
      have hComment : (Token.comment t.toList).Writable := by
        simpa [Node.isLegalComment, Token.Writable, Token.Legible] using h.comment
      simpa [Node.row] using hComment
/-- Every token of a row but the texts is legible. -/
theorem writable_row : ∀ nodes : List Node, (∀ n ∈ nodes, n.WellFormed) →
    ∀ token ∈ row nodes, token.Writable
  | [], _ => by simp [row]
  | node :: rest, h => by
      obtain ⟨hNode, hRest⟩ := List.forall_mem_cons.mp h
      intro token hToken
      exact (List.mem_append.mp hToken).elim (writable_node node hNode token)
        (writable_row rest hRest token)
end

/-! ## Printable trees -/

/-- Whether no two texts stand side by side. -/
def textsApart : List Node → Bool
  | [] => true
  | node :: rest => !(node.isText && rest.head?.any Node.isText) && textsApart rest

/-- Whether a node, if it is a text, is not empty and opens no markup. -/
def Node.isPrintableText : Node → Bool
  | .text t => !t.toList.isEmpty && isInert t.toList
  | .element .. => true
  | .comment _ => true

/-- The texts among the nodes are printable and stand apart. -/
structure TextsPrintable (nodes : List Node) : Prop where
  inert : ∀ n ∈ nodes, n.isPrintableText = true
  apart : textsApart nodes = true

instance (nodes : List Node) : Decidable (TextsPrintable nodes) :=
  decidable_of_iff ((∀ n ∈ nodes, n.isPrintableText = true) ∧ textsApart nodes = true)
    ⟨fun h => ⟨h.1, h.2⟩, fun h => ⟨h.inert, h.apart⟩⟩

/-- An element that is read back from what is written of it. -/
structure Element.Printable (e : Element) : Prop where
  wellFormed : e.WellFormed
  quoteFree : QuoteFree e.attributes
  texts : isRawText e.name = false → TextsPrintable e.children
  head : e.name = "head" → elementsNamed "body" e.children = []

instance (e : Element) : Decidable e.Printable :=
  decidable_of_iff (e.WellFormed ∧ QuoteFree e.attributes ∧
      (isRawText e.name = false → TextsPrintable e.children) ∧
      (e.name = "head" → (elementsNamed "body" e.children).isEmpty = true))
    ⟨fun h => ⟨h.1, h.2.1, h.2.2.1, fun hHead => List.isEmpty_iff.mp (h.2.2.2 hHead)⟩,
      fun h => ⟨h.wellFormed, h.quoteFree, h.texts, fun hHead =>
        List.isEmpty_iff.mpr (h.head hHead)⟩⟩

/-! ## Reading a row -/

/-- A row that is read back in front of `more`: nothing opens in its texts, and what follows a text
ends it. -/
def Readable (more : List Char) : List Token → Prop
  | [] => True
  | .text cs :: rest =>
      cs ≠ [] ∧ isInert cs = true ∧ EndsText (rowChars rest ++ more) ∧ Readable more rest
  | token :: rest => token.Legible ∧ Readable more rest

/-- **A readable row is added token by token.** -/
theorem run_row {tokens : List Token} {more : List Char} (h : Readable more tokens) (b : Builder) :
    b.run (rowChars tokens ++ more) = (tokens.foldl Builder.add b).run more := by
  induction tokens generalizing b with
  | nil => rfl
  | cons token tokens ih =>
      rw [rowChars_cons, List.append_assoc, List.foldl_cons]
      cases token with
      | text cs =>
          obtain ⟨hNonempty, hInert, hEnds, hRest⟩ := h
          rw [Token.chars, Builder.run_inert b hNonempty hInert hEnds]
          exact ih hRest (b.addText cs)
      | comment _ | declaration _ | startTag _ _ | endTag _ | rawText _ _ _ =>
          rw [Builder.run_chars b h.1]
          exact ih h.2 _

/-- A legible token ends the text in front of it. -/
theorem endsText_chars {token : Token} (h : token.Legible) (rest : List Char) :
    EndsText (token.chars ++ rest) := by
  refine Or.inr ?_
  cases token with
  | text cs => exact h.elim
  | comment cs => rfl
  | declaration cs =>
      obtain ⟨mark, inner, rfl, hMark, -, -⟩ := h
      obtain rfl | rfl := hMark <;> rfl
  | startTag name body =>
      obtain ⟨c, others, hChars, hLetter, -⟩ := exists_of_isElementName h.1
      simp [Token.chars, startTagChars, hChars, opensHere_of_isAsciiLetter hLetter]
  | endTag name =>
      obtain ⟨c, others, hChars, hLetter, -⟩ := exists_of_isElementName h
      simp [Token.chars, endTagChars, hChars, opensHere, hLetter]
  | rawText name attributes cs =>
      obtain ⟨c, others, hChars, hLetter, -⟩ := exists_of_isElementName h.1
      simp [Token.chars, startTagChars, hChars, opensHere_of_isAsciiLetter hLetter]

theorem readable_append {more : List Char} {xs ys : List Token}
    (hLeft : Readable (rowChars ys ++ more) xs) (hRight : Readable more ys) :
    Readable more (xs ++ ys) := by
  induction xs with
  | nil => exact hRight
  | cons token xs ih =>
      cases token with
      | text cs =>
          obtain ⟨hNonempty, hInert, hEnds, hRest⟩ := hLeft
          refine ⟨hNonempty, hInert, ?_, ih hRest⟩
          change EndsText (rowChars (xs ++ ys) ++ more)
          rwa [rowChars_append, List.append_assoc]
      | comment _ | declaration _ | startTag _ _ | endTag _ | rawText _ _ _ =>
          exact ⟨hLeft.1, ih hLeft.2⟩

theorem readable_singleton {more : List Char} {token : Token} (h : token.Legible) :
    Readable more [token] := by
  cases token with
  | text cs => exact h.elim
  | comment _ | declaration _ | startTag _ _ | endTag _ | rawText _ _ _ => exact ⟨h, trivial⟩

theorem readable_cons {more : List Char} {token : Token} {tokens : List Token}
    (h : token.Legible) (hRest : Readable more tokens) : Readable more (token :: tokens) :=
  have hToken : Readable (rowChars tokens ++ more) [token] := readable_singleton h
  readable_append hToken hRest

/-- The row of a node that is no text begins with a legible token. -/
theorem exists_legible_of_row {node : Node} (h : node.WellFormed) (hText : node.isText = false) :
    ∃ token tokens, node.row = token :: tokens ∧ token.Legible := by
  have hWritable := writable_node node h
  cases node with
  | text t => simp [Node.isText] at hText
  | comment t => exact ⟨_, [], rfl, hWritable (.comment t.toList) (by simp [Node.row])⟩
  | element name attributes children =>
      cases hRaw : isRawText name with
      | true =>
          rw [row_raw _ _ hRaw] at hWritable ⊢
          exact ⟨_, [], rfl, hWritable _ List.mem_cons_self⟩
      | false =>
          cases hVoid : isVoid name with
          | true =>
              rw [row_void _ _ hRaw hVoid] at hWritable ⊢
              exact ⟨_, [], rfl, hWritable _ List.mem_cons_self⟩
          | false =>
              rw [row_filled _ _ hRaw hVoid] at hWritable ⊢
              exact ⟨_, _, rfl, hWritable _ List.mem_cons_self⟩

theorem endsText_node {node : Node} (h : node.WellFormed) (hText : node.isText = false)
    (rest : List Char) : EndsText (rowChars node.row ++ rest) := by
  obtain ⟨token, tokens, hRow, hLegible⟩ := exists_legible_of_row h hText
  rw [hRow, rowChars_cons, List.append_assoc]
  exact endsText_chars hLegible _

mutual
private theorem readable_node : ∀ (node : Node) (more : List Char), node.WellFormed →
    (∀ e ∈ node.elements, e.Printable) →
    (node.isText = true → node.isPrintableText = true ∧ EndsText more) →
    Readable more node.row
  | .element name attributes children, more, hWellFormed, hElements, _ => by
      obtain ⟨hElement, hBelow⟩ := List.forall_mem_cons.mp hElements
      have hWritable := writable_node _ hWellFormed
      cases hRaw : isRawText name with
      | true =>
          rw [row_raw _ _ hRaw] at hWritable ⊢
          exact readable_singleton (hWritable _ List.mem_cons_self)
      | false =>
          cases hVoid : isVoid name with
          | true =>
              rw [row_void _ _ hRaw hVoid] at hWritable ⊢
              exact readable_singleton (hWritable _ List.mem_cons_self)
          | false =>
              rw [row_filled _ _ hRaw hVoid] at hWritable ⊢
              have hEnd : (Token.endTag name).Legible := hWritable (.endTag name) (by simp)
              refine readable_cons (hWritable _ List.mem_cons_self) ?_
              refine readable_append ?_ (readable_singleton hEnd)
              refine readable_row children _ hWellFormed.children hBelow (hElement.texts hRaw) ?_
              simpa using endsText_chars hEnd more
  | .text t, more, _, _, hText => by
      obtain ⟨hPrintable, hEnds⟩ := hText rfl
      simp only [Node.isPrintableText, Bool.and_eq_true, Bool.not_eq_true'] at hPrintable
      exact ⟨by simpa using hPrintable.1, hPrintable.2, hEnds, trivial⟩
  | .comment t, more, hWellFormed, _, _ => by
      exact readable_singleton
        (writable_node _ hWellFormed (.comment t.toList) List.mem_cons_self)
/-- **The row of a printable tree is readable.** -/
theorem readable_row : ∀ (nodes : List Node) (more : List Char), (∀ n ∈ nodes, n.WellFormed) →
    (∀ e ∈ elementsOf nodes, e.Printable) → TextsPrintable nodes → EndsText more →
    Readable more (row nodes)
  | [], _, _, _, _, _ => trivial
  | node :: rest, more, hWellFormed, hElements, hTexts, hEnds => by
      obtain ⟨hNode, hRest⟩ := List.forall_mem_cons.mp hWellFormed
      simp only [elementsOf_cons, List.forall_mem_append] at hElements
      obtain ⟨hInert, hApart⟩ := hTexts
      simp only [textsApart, Bool.and_eq_true] at hApart
      refine readable_append (readable_node node _ hNode hElements.1 ?_)
        (readable_row rest more hRest hElements.2
          ⟨fun n hn => hInert n (List.mem_cons_of_mem _ hn), hApart.2⟩ hEnds)
      intro hText
      refine ⟨hInert node List.mem_cons_self, ?_⟩
      -- what follows a text is no text
      cases rest with
      | nil => exact hEnds
      | cons next rest =>
          have hNext : next.isText = false := by simpa [hText] using hApart.1
          rw [row, rowChars_append, List.append_assoc]
          exact endsText_node (hRest next List.mem_cons_self) hNext _
end

/-! ## What a row builds -/

namespace Builder

/-- The end tag of the innermost open element closes it. -/
theorem close_innermost {b : Builder} {o : OpenElement} {path : List OpenElement}
    (h : b.path = o :: path) :
    b.close o.name =
      { b with path, nodes := .element o.name o.attributes b.nodes.reverse :: o.before } := by
  simp [close, h, closeThrough]

/-- An end tag without an open element counts for nothing. -/
theorem close_of_not_open {b : Builder} {name : String} (h : ∀ o ∈ b.path, o.name ≠ name) :
    b.close name = b := by
  have hAny : b.path.any (·.name == name) = false := by simpa using h
  simp [close, hAny]

/-- A start tag opens its element, or adds it if that has no content; a body closes no head if
there is none to close. -/
theorem startTag_of_no_head {b : Builder} {name : String}
    (h : name = "body" → ∀ o ∈ b.path, o.name ≠ "head") (attributes : List Attribute) :
    b.startTag name ⟨attributes, false⟩ =
      if isVoid name then b.addNode (.element name attributes [])
      else b.openElement name attributes := by
  have hStart : (if name == "body" then b.close "head" else b) = b := by
    split
    · next hBody => exact close_of_not_open (h (beq_iff_eq.mp hBody))
    · rfl
  unfold startTag
  rw [hStart]
  simp

mutual
private theorem foldl_add_node : ∀ (node : Node) (b : Builder),
    (∀ e ∈ node.elements, e.Printable) →
    (node.isText = true → b.nodes.head?.any Node.isText = false) →
    (elementsNamed "body" [node] = [] ∨ ∀ o ∈ b.path, o.name ≠ "head") →
    node.row.foldl add b = b.addNode node
  | .element name attributes children, b, hElements, _, hHead => by
      obtain ⟨hElement, hBelow⟩ := List.forall_mem_cons.mp hElements
      have hWritten : attributes.map Attribute.written = attributes :=
        map_written_of_quoteFree hElement.quoteFree
      -- a body closes no head: there is none that is open
      have hOpen : name = "body" → ∀ o ∈ b.path, o.name ≠ "head" := by
        rintro rfl
        refine hHead.resolve_left ?_
        simp [elementsNamed, Node.elementsNamed]
      cases hRaw : isRawText name with
      | true =>
          have hContent := (nodesChars_of_isRawContent (hElement.wellFormed.raw hRaw)).2.1
          simp [row_raw _ _ hRaw, hWritten, add, hContent]
      | false =>
          cases hVoid : isVoid name with
          | true =>
              have hNil : children = [] := hElement.wellFormed.void hVoid
              simp [row_void _ _ hRaw hVoid, hWritten, add, startTag_of_no_head hOpen, hVoid, hNil]
          | false =>
              have hInside : elementsNamed "body" children = [] ∨
                  ∀ o ∈ (b.openElement name attributes).path, o.name ≠ "head" := by
                by_cases hName : name = "head"
                · exact Or.inl (hElement.head hName)
                · refine hHead.imp (fun hNone => ?_) fun hPath => ?_
                  · simp only [elementsNamed, Node.elementsNamed, List.append_nil,
                      List.append_eq_nil_iff] at hNone
                    exact hNone.2
                  · exact List.forall_mem_cons.mpr ⟨hName, hPath⟩
              have hContent := foldl_add_row children (b.openElement name attributes) hBelow
                (hElement.texts hRaw).apart (by simp [openElement]) hInside
              have hClose := close_innermost (b := { b.openElement name attributes with
                nodes := children.reverse ++ (b.openElement name attributes).nodes }) rfl
              rw [row_filled _ _ hRaw hVoid, hWritten, List.foldl_cons, List.foldl_append, add,
                startTag_of_no_head hOpen, hVoid, if_neg Bool.false_ne_true, hContent]
              refine hClose.trans ?_
              simp [openElement, addNode]
  | .text t, b, _, hText, _ => by
      rw [Node.row, List.foldl_cons, List.foldl_nil, add, addText_of_not_text (hText rfl),
        String.ofList_toList]
  | .comment t, b, _, _, _ => by
      rw [Node.row, List.foldl_cons, List.foldl_nil, add, String.ofList_toList]
/-- **A printable row builds the nodes that it was written for.** -/
theorem foldl_add_row : ∀ (nodes : List Node) (b : Builder),
    (∀ e ∈ elementsOf nodes, e.Printable) →
    textsApart nodes = true →
    (nodes.head?.any Node.isText = true → b.nodes.head?.any Node.isText = false) →
    (elementsNamed "body" nodes = [] ∨ ∀ o ∈ b.path, o.name ≠ "head") →
    (row nodes).foldl add b = { b with nodes := nodes.reverse ++ b.nodes }
  | [], b, _, _, _, _ => rfl
  | node :: rest, b, hElements, hApart, hFirst, hHead => by
      simp only [elementsOf_cons, List.forall_mem_append] at hElements
      simp only [textsApart, Bool.and_eq_true] at hApart
      have hNone : elementsNamed "body" (node :: rest) = [] →
          elementsNamed "body" [node] = [] ∧ elementsNamed "body" rest = [] := by
        simp [elementsNamed]
      have hNext : rest.head?.any Node.isText = true →
          (b.addNode node).nodes.head?.any Node.isText = false := by
        intro hRest
        simpa [hRest, addNode] using hApart.1
      rw [row, List.foldl_append, foldl_add_node node b hElements.1 (by simpa using hFirst)
          (hHead.imp_left fun h => (hNone h).1),
        foldl_add_row rest (b.addNode node) hElements.2 hApart.2 hNext
          (hHead.imp_left fun h => (hNone h).2)]
      simp [addNode]
end

end Builder

end PagePreview.Markup
