/-!
# The markup tree

A page is a tree of elements, texts and comments. `Node` is that tree;
`Element` is a node known to be an element, as a structure, so that its
parts have names.

Texts are source text: a character reference such as `&amp;` stays as it was
written, in texts and in attribute values alike, and so printing adds none.

Besides looking around (`Element.child?`, `descendants`) there is one
operation that changes a whole tree, `editEach`. It numbers the elements of
one name in document order and lets a function decide, from the number and
the element, which attributes the element gets and whether a text replaces
its children. Everything that is not such an element stays as it is, which
is why the pass over the scripts of a page is defined through it.
-/

namespace PagePreview.Markup

/-! ## Element names with a meaning of their own -/

/-- Elements that have no content and no end tag. -/
def voidNames : List String :=
  ["area", "base", "br", "col", "embed", "hr", "img", "input", "link", "meta", "param",
    "source", "track", "wbr"]

def isVoid (name : String) : Bool := voidNames.contains name

/-- Elements whose content is text up to their own end tag, whatever stands in it. -/
def rawTextNames : List String := ["script", "style", "textarea", "title"]

def isRawText (name : String) : Bool := rawTextNames.contains name

/-- Elements that belong to the head of a page when the page does not say where its head is. -/
def headNames : List String :=
  ["base", "link", "meta", "noscript", "script", "style", "template", "title"]

def isHeadName (name : String) : Bool := headNames.contains name

/-- Elements that open foreign content, in which any tag may close itself. -/
def isForeign (name : String) : Bool := name == "svg" || name == "math"

theorem not_isVoid_of_isRawText {name : String} (h : isRawText name = true) :
    isVoid name = false := by
  simp only [isRawText, rawTextNames, List.contains_eq_mem, List.mem_cons, List.not_mem_nil,
    or_false, decide_eq_true_eq] at h
  rcases h with rfl | rfl | rfl | rfl <;> decide

/-! ## Nodes -/

/-- A name and a value; an attribute written without a value has the empty one. -/
structure Attribute where
  name : String
  value : String
deriving DecidableEq, Repr

inductive Node where
  | element (name : String) (attributes : List Attribute) (children : List Node)
  | text (text : String)
  | comment (text : String)

structure Element where
  name : String
  attributes : List Attribute := []
  children : List Node := []

def Element.toNode (e : Element) : Node := .element e.name e.attributes e.children

/-- The element that a node is. -/
def Node.element? : Node → Option Element
  | .element name attributes children => some ⟨name, attributes, children⟩
  | .text _ => none
  | .comment _ => none

@[simp] theorem element?_toNode (e : Element) : e.toNode.element? = some e := rfl

/-- Whether the node is an element of that name. -/
def Node.isNamed (name : String) : Node → Bool
  | .element n _ _ => n == name
  | .text _ => false
  | .comment _ => false

def Node.isElement : Node → Bool
  | .element .. => true
  | .text _ => false
  | .comment _ => false

/-- A text as the children of an element; the empty text is no child at all. -/
def textChildren (text : String) : List Node := if text.isEmpty then [] else [.text text]

/-! ## Attributes -/

/-- The value of the attribute of that name. -/
def attribute? (name : String) (attributes : List Attribute) : Option String :=
  (attributes.find? (·.name == name)).map (·.value)

/-- Gives an attribute a value: in its place if there is one of that name, else at the end. -/
def setAttribute (name value : String) : List Attribute → List Attribute
  | [] => [⟨name, value⟩]
  | a :: rest =>
    if a.name == name then ⟨a.name, value⟩ :: rest else a :: setAttribute name value rest

theorem attribute?_setAttribute (name value : String) (attributes : List Attribute) :
    attribute? name (setAttribute name value attributes) = some value := by
  induction attributes with
  | nil => simp [setAttribute, attribute?]
  | cons a rest ih =>
    simp only [setAttribute]
    split
    · next h => simp [attribute?, h]
    · next h => simpa [attribute?, h] using ih

def Element.attribute? (e : Element) (name : String) : Option String :=
  Markup.attribute? name e.attributes

/-! ## Looking at an element -/

/-- The texts among the nodes, joined. -/
def textOf (nodes : List Node) : String :=
  String.ofList (nodes.flatMap fun
    | .text t => t.toList
    | .element .. => []
    | .comment _ => [])

/-- The texts that are children of the element, joined. -/
def Element.text (e : Element) : String := textOf e.children

/-- The first child element of that name. -/
def Element.child? (e : Element) (name : String) : Option Element :=
  e.children.findSome? fun n => if n.isNamed name then n.element? else none

def Element.hasChild (e : Element) (name : String) : Bool := e.children.any (·.isNamed name)

mutual
/-- The elements of that name in a node, in document order. -/
def Node.elementsNamed (name : String) : Node → List Element
  | .element n attributes children =>
    (if n == name then [⟨n, attributes, children⟩] else []) ++ elementsNamed name children
  | .text _ => []
  | .comment _ => []
/-- The elements of that name in a list of nodes, in document order. -/
def elementsNamed (name : String) : List Node → List Element
  | [] => []
  | node :: rest => node.elementsNamed name ++ elementsNamed name rest
end

/-- The elements of that name below an element, in document order. -/
def Element.descendants (e : Element) (name : String) : List Element :=
  elementsNamed name e.children

/-! ## Changing an element -/

/-- Changes the first node that is an element of that name. -/
def changeFirst (name : String) (change : Element → Element) : List Node → List Node
  | [] => []
  | .element n attributes children :: rest =>
    if n == name then (change ⟨n, attributes, children⟩).toNode :: rest
    else .element n attributes children :: changeFirst name change rest
  | .text t :: rest => .text t :: changeFirst name change rest
  | .comment t :: rest => .comment t :: changeFirst name change rest

/-- Changes the first child element of that name. -/
def Element.changeChild (e : Element) (name : String) (change : Element → Element) : Element :=
  { e with children := changeFirst name change e.children }

/-- Puts nodes in front of the children. -/
def Element.prepend (e : Element) (nodes : List Node) : Element :=
  { e with children := nodes ++ e.children }

/-- Puts nodes behind the children. -/
def Element.append (e : Element) (nodes : List Node) : Element :=
  { e with children := e.children ++ nodes }

def Element.setAttribute (e : Element) (name value : String) : Element :=
  { e with attributes := Markup.setAttribute name value e.attributes }

/-- Replaces the children by a text. -/
def Element.setText (e : Element) (text : String) : Element :=
  { e with children := textChildren text }

/-- The element at the end of a path of names; each step takes the first child of its name. -/
def Element.at? (e : Element) : (path : List String) → Option Element
  | [] => some e
  | name :: path => e.child? name >>= (·.at? path)

/-- Changes the element at the end of a path. A path that leads nowhere changes nothing. -/
def Element.changeAt (change : Element → Element) : (path : List String) → Element → Element
  | [], e => change e
  | name :: path, e => e.changeChild name (changeAt change path)

/-! ## Changing every element of a name -/

/-- What becomes of one element: its attributes, and the text that replaces its children if
there is one. -/
structure Edit where
  attributes : List Attribute
  text : Option String := none

mutual
/-- Edits the elements of that name in a node. `next` is the number of the first one; the number
after the last one comes back with the node. -/
def Node.editEach (name : String) (edit : Nat → Element → Edit) (next : Nat) : Node → Node × Nat
  | .element n attributes children =>
    if n == name then
      let e := edit next ⟨n, attributes, children⟩
      match e.text with
      | some text => (.element n e.attributes (textChildren text), next + 1)
      | none =>
        let (children, next) := editEach name edit (next + 1) children
        (.element n e.attributes children, next)
    else
      let (children, next) := editEach name edit next children
      (.element n attributes children, next)
  | .text t => (.text t, next)
  | .comment t => (.comment t, next)
/-- Edits the elements of that name in a list of nodes, numbering them from `next` on. -/
def editEach (name : String) (edit : Nat → Element → Edit) (next : Nat) :
    List Node → List Node × Nat
  | [] => ([], next)
  | node :: rest =>
    let (node, next) := node.editEach name edit next
    let (rest, next) := editEach name edit next rest
    (node :: rest, next)
end

/-- Edits every element of that name below an element, numbering them from zero. -/
def Element.editDescendants (e : Element) (name : String) (edit : Nat → Element → Edit) :
    Element :=
  { e with children := (editEach name edit 0 e.children).1 }

end PagePreview.Markup
