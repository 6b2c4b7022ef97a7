import PagePreview.Markup.Doctype
import PagePreview.Markup.Token

/-!
# From tokens to a list of nodes

A `Builder` is a place in a tree under construction: the nodes already read
inside the innermost open element and, around it, the elements that are
still open, each with the nodes that stand before it. Both lists have the
newest first, so that every step works at their heads.

`parseNodes` runs the builder over a page. It does not know what a page is
made of; that is the matter of `Markup.normalize`.
-/

namespace PagePreview.Markup

/-- An element whose end tag has not come yet. -/
structure OpenElement where
  name : String
  attributes : List Attribute
  /-- Its siblings so far, newest first. -/
  before : List Node

structure Builder where
  doctype : Option Doctype := none
  /-- The open elements, innermost first. -/
  path : List OpenElement := []
  /-- The nodes in the innermost open element, newest first. -/
  nodes : List Node := []

namespace Builder

def addNode (b : Builder) (node : Node) : Builder := { b with nodes := node :: b.nodes }

/-- Adds a text; it continues the last node if that is a text as well. -/
def addText (b : Builder) (cs : List Char) : Builder :=
  match b.nodes with
  | .text t :: rest => { b with nodes := .text (t ++ String.ofList cs) :: rest }
  | nodes => { b with nodes := .text (String.ofList cs) :: nodes }

def openElement (b : Builder) (name : String) (attributes : List Attribute) : Builder :=
  { b with path := ⟨name, attributes, b.nodes⟩ :: b.path, nodes := [] }

/-- Closes the open elements up to and with the innermost one of that name; all of them if there
is none. -/
def closeThrough (name : String) : List OpenElement → List Node → List OpenElement × List Node
  | [], nodes => ([], nodes)
  | o :: path, nodes =>
    let nodes := .element o.name o.attributes nodes.reverse :: o.before
    if o.name == name then (path, nodes) else closeThrough name path nodes

/-- Closes the innermost open element of that name and all inside it. An element that is not open
cannot be closed: the end tag counts for nothing. -/
def close (b : Builder) (name : String) : Builder :=
  if b.path.any (·.name == name) then
    let (path, nodes) := closeThrough name b.path b.nodes
    { b with path, nodes }
  else b

/-- Closes everything that is open. -/
def closeAll : List OpenElement → List Node → List Node
  | [], nodes => nodes
  | o :: path, nodes => closeAll path (.element o.name o.attributes nodes.reverse :: o.before)

/-- Whether the place lies in foreign content. -/
def inForeign (b : Builder) : Bool := b.path.any (isForeign ·.name)

/-- The start of a body ends a head that is open. Elements without content are complete at once,
and so are the ones that close themselves in foreign content. -/
def startTag (b : Builder) (name : String) (body : TagBody) : Builder :=
  let b := if name == "body" then b.close "head" else b
  if isVoid name || (body.selfClosing && (isForeign name || b.inForeign)) then
    b.addNode (.element name body.attributes [])
  else b.openElement name body.attributes

/-- The first declaration of a document type is the one that counts. -/
def declaration (b : Builder) (cs : List Char) : Builder :=
  match b.doctype with
  | some _ => b
  | none => { b with doctype := Doctype.ofDeclaration? cs }

def add (b : Builder) : Token → Builder
  | .text cs => b.addText cs
  | .comment cs => b.addNode (.comment (String.ofList cs))
  | .declaration cs => b.declaration cs
  | .startTag name body => b.startTag name body
  | .endTag name => b.close name
  | .rawText name attributes cs =>
    b.addNode (.element name attributes (textChildren (String.ofList cs)))

/-- The top-level nodes, in the order of the page. -/
def finish (b : Builder) : List Node := (closeAll b.path b.nodes).reverse

/-- Reads a page to its end. -/
def run (b : Builder) : List Char → Builder
  | [] => b
  | c :: cs =>
    match _h : Token.next b.inForeign c cs with
    | (token, rest) => run (b.add token) rest
termination_by cs => cs.length
decreasing_by
  have := Token.length_next_lt b.inForeign c cs
  rwa [_h] at this

end Builder

/-- The document type declared on a page and the page's top-level nodes. -/
def parseNodes (html : String) : Option Doctype × List Node :=
  let b := Builder.run {} html.toList
  (b.doctype, b.finish)

end PagePreview.Markup
