import PagePreview.Markup.Node
import PagePreview.Text.Blank

/-!
# The shape of a page

`normalize` turns any list of top-level nodes into one `html` element with a
head that no other element precedes.

* If there is an `html` element, what stands before it moves to the start of
  its head and what stands after it to the end of its body.
* If there is a head or a body but no `html` element, everything goes into a
  new one.
* Otherwise the leading elements that only a head can hold form the head and
  the rest forms the body.

Elements that precede the head inside `html` move to the start of the head,
the way a browser reads a script written ahead of it. Only comments and
blank texts are ever dropped.
-/

namespace PagePreview.Markup

/-- Whether a node matters where it stands outside the page proper: an element does, and a text
that is not blank. -/
def Node.isContent : Node → Bool
  | .element .. => true
  | .text t => !Text.isAllBlank t
  | .comment _ => false

/-- The nodes before the first element of that name, the element, and the nodes after it. -/
def breakAt? (name : String) : List Node → Option (List Node × Element × List Node)
  | [] => none
  | node :: rest =>
    let later := (breakAt? name rest).map fun (before, e, after) => (node :: before, e, after)
    match node.element? with
    | some e => if e.name == name then some ([], e, rest) else later
    | none => later

/-- Gives the element an empty head in front if it has none. -/
def ensureHead (html : Element) : Element :=
  if html.hasChild "head" then html else html.prepend [.element "head" [] []]

/-- Moves what precedes the first head into it, if an element is among that. -/
def hoistIntoHead (html : Element) : Element :=
  match breakAt? "head" html.children with
  | none => html
  | some (before, head, after) =>
    if before.any Node.isElement then
      { html with children := (head.prepend (before.filter Node.isContent)).toNode :: after }
    else html

/-- Puts nodes at the end of the body, or of the page if it has no body. -/
def appendToBody (html : Element) (nodes : List Node) : Element :=
  if html.hasChild "body" then html.changeChild "body" (·.append nodes) else html.append nodes

/-- Whether a leading node still belongs to the head of a page that does not mark its head. -/
def Node.isHeadOnly : Node → Bool
  | .element name .. => isHeadName name
  | .text t => Text.isAllBlank t
  | .comment _ => true

/-- A page around nodes with no `html` element among them. -/
def wrapInHtml (nodes : List Node) : Element :=
  if nodes.any (fun n => n.isNamed "head" || n.isNamed "body") then
    hoistIntoHead ⟨"html", [], nodes.filter Node.isContent⟩
  else
    let head := (nodes.takeWhile Node.isHeadOnly).filter Node.isContent
    ⟨"html", [], [.element "head" [] head, .element "body" [] (nodes.dropWhile Node.isHeadOnly)]⟩

/-- The page that a list of top-level nodes stands for. -/
def normalize (nodes : List Node) : Element :=
  match breakAt? "html" nodes with
  | none => ensureHead (wrapInHtml nodes)
  | some (before, html, after) =>
    let html := hoistIntoHead (ensureHead html)
    let html := html.changeChild "head" (·.prepend (before.filter Node.isContent))
    ensureHead (appendToBody html (after.filter Node.isContent))

end PagePreview.Markup
