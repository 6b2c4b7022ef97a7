import PagePreview.Markup.Builder
import PagePreview.Markup.Node
import PagePreview.Markup.Normalize
import PagePreview.Text.Search

/-!
# Pages

A `Document` is a page read as a whole: its document type and its root
element, which `parse` brings into the shape of `Markup.normalize`.
-/

namespace PagePreview.Markup

/-! ## Writing the markup tree

Every attribute is written with a value in double quotes; a double quote
inside becomes the reference `&quot;`. Texts and comments are written as
they are. A void element ends with its start tag.
-/

def Attribute.chars (a : Attribute) : List Char :=
  ' ' :: a.name.toList ++ "=\"".toList ++
    Text.replaceAll ['"'] "&quot;".toList a.value.toList ++ ['"']

def startTagChars (name : String) (attributes : List Attribute) : List Char :=
  '<' :: name.toList ++ attributes.flatMap Attribute.chars ++ ['>']

def endTagChars (name : String) : List Char := "</".toList ++ name.toList ++ ['>']

mutual
def Node.chars : Node → List Char
  | .element name attributes children =>
    startTagChars name attributes ++
      (if isVoid name then [] else nodesChars children ++ endTagChars name)
  | .text t => t.toList
  | .comment t => "<!--".toList ++ t.toList ++ "-->".toList
def nodesChars : List Node → List Char
  | [] => []
  | node :: rest => node.chars ++ nodesChars rest
end

def Element.chars (e : Element) : List Char := e.toNode.chars

/-! ## Whole pages -/

structure Document where
  doctype : Option Doctype := none
  root : Element

namespace Document

/-- Reads a page. Every text is one. -/
def parse (html : String) : Document :=
  let (doctype, nodes) := parseNodes html
  ⟨doctype, normalize nodes⟩

/-- The document type on a line of its own. -/
def doctypeChars (d : Document) : List Char :=
  match d.doctype with
  | some t => t.chars ++ ['\n']
  | none => []

def chars (d : Document) : List Char := d.doctypeChars ++ d.root.chars

/-- The source text of a page. -/
def toHtml (d : Document) : String := String.ofList d.chars

/-- Puts a node at the start of the head; a page without a head gets one. -/
def prependToHead (d : Document) (node : Node) : Document :=
  { d with root := (ensureHead d.root).changeChild "head" (·.prepend [node]) }

/-- The script elements, in the order in which they run. -/
def scripts (d : Document) : List Element := d.root.descendants "script"

end Document

end PagePreview.Markup
