import PagePreview.Proofs.Markup.DoctypeText
import PagePreview.Proofs.Markup.Row

/-!
# Printing and reading back

`Document.row` is the row of tokens that the printer writes for a page, its
document type included.  A page whose row is readable and builds the page
again is read back from its text, and `Document.Printable` says when that is
so: `parse_toHtml`.
-/

namespace PagePreview.Markup

namespace Document

/-- The tokens of the document type and of the line end behind it. -/
def doctypeRow (d : Document) : List Token :=
  match d.doctype with
  | some t => [.declaration t.chars, .text ['\n']]
  | none => []

/-- The tokens of a page. -/
def row (d : Document) : List Token := d.doctypeRow ++ Markup.row [d.root.toNode]

/-- A page that is read back from its text: its elements are printable, its root is an `html`
element with a head that no element precedes, and its document type is printable. -/
structure Printable (d : Document) : Prop where
  doctype : ∀ t, d.doctype = some t → t.Printable
  elements : ∀ e ∈ d.root.toNode.elements, e.Printable
  root : d.root.name = "html"
  head : d.root.HeadFirst

instance (d : Document) : Decidable d.Printable :=
  decidable_of_iff (d.doctype.all (fun t => decide t.Printable) = true ∧
      (∀ e ∈ d.root.toNode.elements, e.Printable) ∧ d.root.name = "html" ∧ d.root.HeadFirst)
    ⟨fun h => ⟨fun t ht => by simpa [ht] using h.1, h.2.1, h.2.2.1, h.2.2.2⟩,
      fun h => ⟨by
        cases hDoctype : d.doctype with
        | none => rfl
        | some t => simpa using h.doctype t hDoctype, h.elements, h.root, h.head⟩⟩

theorem rowChars_doctypeRow (d : Document) : rowChars d.doctypeRow = d.doctypeChars := by
  unfold doctypeRow doctypeChars
  split <;> simp [Token.chars, *]

/-- The text of a page is the text of its row. -/
theorem rowChars_row {d : Document} (h : d.root.toNode.WellFormed) : rowChars d.row = d.chars := by
  rw [row, rowChars_append, rowChars_doctypeRow, ← chars_eq_rowChars h, chars]

/-- A document type in front of a page leaves a blank text behind. -/
theorem foldl_add_doctypeRow (d : Document) :
    ∃ before, (∀ n ∈ before, n.isElement = false ∧ n.isContent = false) ∧
      d.doctypeRow.foldl Builder.add {} =
        { doctype := d.doctype.bind fun t => Doctype.ofDeclaration? t.chars, nodes := before } := by
  unfold doctypeRow
  split
  · next t ht =>
      refine ⟨[.text "\n"], ?_, by rw [ht]; rfl⟩
      simp [Node.isElement, Node.isContent, Text.isAllBlank, Text.isBlank]
  · next hNone => exact ⟨[], by simp, by rw [hNone]; rfl⟩

namespace Printable

variable {d : Document}

theorem wellFormed (h : d.Printable) : d.root.toNode.WellFormed :=
  ⟨rfl, fun e he => (h.elements e he).wellFormed⟩

/-- The page without its document type is readable. -/
theorem readable_root (h : d.Printable) : Readable [] (Markup.row [d.root.toNode]) := by
  refine readable_row [d.root.toNode] [] (List.forall_mem_singleton.mpr h.wellFormed) ?_ ?_
    (Or.inl rfl)
  · simpa using h.elements
  · exact ⟨by simp [Element.toNode, Node.isPrintableText], by simp [textsApart]⟩

/-- **The row of a printable page is readable.** -/
theorem readable (h : d.Printable) : Readable [] d.row := by
  unfold row doctypeRow
  split
  · next t ht =>
      refine ⟨(h.doctype t ht).bracketFree.isDeclarationText, by simp, rfl, ?_, h.readable_root⟩
      have hEnds := endsText_node h.wellFormed (show d.root.toNode.isText = false from rfl) []
      simpa [Markup.row] using hEnds
  · exact h.readable_root

/-- The row of a printable root builds the root, behind nodes that are there already. -/
theorem foldl_add_root (h : d.Printable) (doctype : Option Doctype) (nodes : List Node) :
    (Markup.row [d.root.toNode]).foldl Builder.add { doctype, nodes } =
      { doctype, nodes := d.root.toNode :: nodes } := by
  have hElements : ∀ e ∈ elementsOf [d.root.toNode], e.Printable := by simpa using h.elements
  have hText : [d.root.toNode].head?.any Node.isText = true →
      nodes.head?.any Node.isText = false := by simp [Element.toNode, Node.isText]
  exact Builder.foldl_add_row [d.root.toNode] { doctype, nodes } hElements rfl hText
    (Or.inr (by simp))

/-- The row of a printable page builds the page; a blank text in front of the root is what is left
of the line of the document type. -/
theorem foldl_add_row (h : d.Printable) :
    ∃ before, (∀ n ∈ before, n.isContent = false) ∧
      d.row.foldl Builder.add {} =
        { doctype := d.doctype, nodes := d.root.toNode :: before } := by
  obtain ⟨before, hBefore, hBuilt⟩ := foldl_add_doctypeRow d
  have hDoctype : d.doctype.bind (fun t => Doctype.ofDeclaration? t.chars) = d.doctype := by
    cases hSome : d.doctype with
    | none => rfl
    | some t => exact (h.doctype t hSome).ofDeclaration?_chars
  refine ⟨before, fun n hn => (hBefore n hn).2, ?_⟩
  rw [row, List.foldl_append, hBuilt, hDoctype]
  exact h.foldl_add_root d.doctype before

end Printable

/-- **Printing and reading are inverse on printable pages.** -/
theorem parse_toHtml {d : Document} (h : d.Printable) : parse d.toHtml = d := by
  obtain ⟨before, hBlank, hBuilt⟩ := h.foldl_add_row
  have hChars : d.toHtml.toList = rowChars d.row ++ [] := by
    rw [rowChars_row h.wellFormed, List.append_nil, toHtml, String.toList_ofList]
  have hNodes : parseNodes d.toHtml = (d.doctype, before.reverse ++ [d.root.toNode]) := by
    unfold parseNodes
    rw [hChars, run_row h.readable, hBuilt, Builder.run_nil]
    simp [Builder.finish, Builder.closeAll]
  unfold parse
  rw [hNodes]
  simp only
  rw [normalize_of_headFirst h.head h.root fun n hn => hBlank n (List.mem_reverse.mp hn)]

/-- A page with a document type, raw text, a void element, a comment, a body behind the head, and
texts that end in what could begin a tag. -/
def printableSample : Document where
  doctype := some ⟨"html", some "-//W3C//DTD HTML 4.01//EN", some "about:legacy-compat"⟩
  root := {
    name := "html"
    attributes := [⟨"lang", "en"⟩, ⟨"data-x", "a 'b' < c"⟩]
    children := [.text "\n <", .comment " - -- > ",
      .element "head" [] [.element "script" [⟨"type", "module"⟩] [.text "if (a<b) '</scripts>'"],
        .element "title" [] []],
      .text "a </",
      .element "body" [] [.text "x < y <", .element "br" [] [],
        .element "svg" [] [.element "g" [⟨"id", ""⟩] [.text "1 <2"]]]] }

theorem parse_toHtml_printableSample :
    printableSample.Printable ∧ parse printableSample.toHtml = printableSample :=
  ⟨by decide +kernel, parse_toHtml (by decide +kernel)⟩

end Document

end PagePreview.Markup
