import PagePreview.Script.Lowering.Names
import PagePreview.Script.Token
import PagePreview.Text.Entity

/-!
# Markup becomes calls

An element is a call of the library's `createElement` with the element's
name, an object made from the attributes, and the children. `lowerElement`
does that for an element whose attributes and children have been done, so
markup is lowered by one `Node.map`.
-/

namespace PagePreview.Script.Lowering

/-! ## Texts -/

/-- The lines of a text with the blanks at their ends taken away: not in front of the first line
and not behind the last one. -/
def trimLines : (isFirst : Bool) → List (List Char) → List (List Char)
  | _, [] => []
  | isFirst, [l] => [if isFirst then l else l.dropWhile isSpace]
  | isFirst, l :: ls =>
    Text.dropEndWhile isSpace (if isFirst then l else l.dropWhile isSpace) ::
      trimLines false ls

/-- What a text between tags stands for: its lines in one line, with a blank between them. Lines
of blanks do not count, unless there is only that line. -/
def shownText? (s : String) : Option String :=
  let lines := trimLines true (Text.splitWhere Literal.isLineEnd s.toList)
  match lines.filter (!·.isEmpty) with
  | [] => none
  | ls => some (String.ofList ([' '].intercalate (ls.map Text.Entity.decode)))

/-- What the value of an attribute stands for. -/
def attributeText (s : String) : String := String.ofList (Text.Entity.decode s.toList)

/-! ## Names -/

/-- Whether a name stands for a kind of element rather than for a value of the script. -/
def isIntrinsic (s : String) : Bool :=
  match s.toList with
  | c :: cs => ('a' ≤ c && c ≤ 'z') || (c :: cs).contains '-'
  | [] => true

/-- The first argument for an element. -/
def tagNode : Node → Node
  | .mk (.tagName s) span _ =>
    if s == "this" then .mk .self span []
    else if isIntrinsic s then .mk (.string s false) span []
    else .mk (.name s) span []
  | .mk .tagPath span [o, .mk (.tagName p) ps _] =>
    .mk (.member false) span [pathNode o, .mk (.name p) ps []]
  | n => n
where
  /-- The value that a path of names begins with. -/
  pathNode : Node → Node
  | .mk (.tagName s) span _ => if s == "this" then .mk .self span [] else .mk (.name s) span []
  | .mk .tagPath span [o, .mk (.tagName p) ps _] =>
    .mk (.member false) span [pathNode o, .mk (.name p) ps []]
  | n => n

/-- The key for an attribute. -/
def attributeKey (n : Node) : Node :=
  match n.kind with
  | .tagName s =>
    if s.toList.contains '-' then .mk (.string s false) n.span [] else .mk (.name s) n.span []
  | .scopedName s t => .mk (.string (s ++ ":" ++ t) false) n.span []
  | _ => n

/-! ## Attributes -/

def truth : Node := .made (.boolean true)

/-- The value for an attribute. -/
def attributeValue (n : Node) : Node :=
  match n with
  | .mk .absent _ _ => truth
  | .mk (.markupString s) span _ => .mk (.string (attributeText s) false) span []
  | .mk .container _ [e] => match e.kind with
    | .nothing => truth
    | _ => e
  | n => n

/-- Whether an object has a key that sets what it is derived from. -/
def setsBase (n : Node) : Bool :=
  n.children.any fun p => match p.kind with
    | .property .value false _ =>
      match (p.child 0).kind with
      | .name s | .string s _ => s == "__proto__"
      | _ => false
    | _ => false

/-- An object whose properties can be taken over. -/
def properties? (n : Node) : Option (List Node) :=
  match n.kind with
  | .object => if setsBase n then none else some n.children
  | _ => none

/-- The properties for an attribute. -/
def attributeProperties (n : Node) : List Node :=
  match n.kind with
  | .attributeSpread =>
    match properties? (n.child 0) with
    | some ps => ps
    | none => [.mk .spread n.span [n.child 0]]
  | _ =>
    [.mk (.property .value false false) n.span
      [attributeKey (n.child 0), attributeValue (n.child 1)]]

/-- The second argument for an element. -/
def attributesNode (attributes : List Node) : Node :=
  let all : Node := match attributes.flatMap attributeProperties with
    | [] => .made .null
    | ps => .made .object ps
  match attributes with
  | [a] =>
    match a.kind, (a.child 0).kind with
    | .attributeSpread, .object => if setsBase (a.child 0) then all else a.child 0
    | .attributeSpread, _ => a.child 0
    | _, _ => all
  | _ => all

/-! ## What is called -/

/-- What is called for an element, and what stands for a fragment in such a call. -/
structure Makers where
  element : Node
  fragment : Node

/-- What a library has for markup. -/
def Makers.ofLibrary (library : String) : Makers :=
  ⟨member (name library) "createElement", member (name library) "Fragment"⟩

/-- The value that names with points between them lead to. -/
def pathOf (text : String) : Node :=
  match text.splitOn "." with
  | [] => name text
  | first :: rest => rest.foldl member (if first == "this" then .made .self else name first)

/-- The words that a comment can say something about markup with, behind `@jsx`. -/
def directiveWords : List String := ["", "Frag", "Runtime", "ImportSource"]

/-- The first directive of a comment about markup: the word behind `@jsx`, its value, and the rest
of the comment. One without a value ends the comment. -/
def directive? : List Char → Option (String × String × List Char)
  | [] => none
  | c :: cs =>
    if Text.startsWith "@jsx".toList (c :: cs) then
      let (word, rest) := (cs.drop 3).span fun c => !isTabOrBlank c
      let (value, rest) := (rest.dropWhile isTabOrBlank).span (!isGap ·)
      if directiveWords.contains (String.ofList word) then
        if value.isEmpty then none else some (String.ofList word, String.ofList value, rest)
      else directive? cs
    else directive? cs
where
  isTabOrBlank (c : Char) : Bool := c == ' ' || c == '\t'
  isGap (c : Char) : Bool := isTabOrBlank c || c == '\n' || c == '\r' || c == '\x0c'

/-- How a script wants its markup lowered. -/
structure Style where
  makers : Makers
  /-- Whether the calls are to be imported by themselves, which the makers rule out. -/
  importsCalls : Bool := false
  /-- Whether a module is named for these imports, which goes with them only. -/
  namesModule : Bool := false

namespace Style

/-- Follows one directive. -/
def followOne (word value : String) (s : Style) : Style :=
  if word.isEmpty then { s with makers := { s.makers with element := pathOf value } }
  else if word == "Frag" then { s with makers := { s.makers with fragment := pathOf value } }
  else if word == "ImportSource" then { s with namesModule := true }
  else if value == "automatic" then { s with importsCalls := true }
  else if value == "classic" then { s with importsCalls := false }
  else s

/-- Follows the directives of a text. Each one is shorter than what it stands in. -/
def follow : (fuel : Nat) → List Char → Style → Style
  | 0, _, s => s
  | fuel + 1, text, s =>
    match directive? text with
    | none => s
    | some (word, value, rest) => follow fuel rest (followOne word value s)

end Style

/-- What a script calls for its markup: what the library has, unless a comment names something
else. There is nothing if a comment asks for another way. -/
def Makers.ofProgram? (library : String) (comments : List Comment) : Option Makers :=
  let s := comments.foldl (fun s c => Style.follow c.text.length c.inside s)
    ⟨ofLibrary library, false, false⟩
  if s.importsCalls || s.namesModule then none else some s.makers

/-! ## Elements -/

/-- The argument for a child, if there is one. -/
def childNode? (n : Node) : Option Node :=
  match n with
  | .mk (.markupText s) span _ => (shownText? s).map fun t => .mk (.string t false) span []
  | .mk .container _ [e] => match e.kind with
    | .nothing => none
    | _ => some e
  | .mk .childSpread span [e] => some (.mk .spread span [e])
  | n => some n

/-- The call for an element. -/
def elementCall (m : Makers) (span : Span) (tag attributes : Node) (children : List Node) :
    Node :=
  callOf true span m.element (tag :: attributes :: children.filterMap childNode?)

/-- The call that an element becomes, if its attributes and children have been lowered. -/
def lowerElement (m : Makers) (n : Node) : Node :=
  match n with
  | .mk (.element _) span [tag, _, as, cs] =>
    elementCall m span (tagNode tag) (attributesNode as.children) cs.children
  | .mk .fragment span cs => elementCall m span m.fragment (.made .null) cs
  | n => n

/-- Whether there is no call for an element: its name has a scope, or it has a key without a
value. -/
def cannotLower (n : Node) : Bool :=
  match n.kind with
  | .element _ =>
    (match (n.child 0).kind with
      | .scopedName _ _ => true
      | _ => false) ||
    (n.items 2).any fun a => match a.kind, (a.child 0).kind with
      | .markupAttribute, .tagName s => s == "key" && (a.child 1).isAbsent
      | _, _ => false
  | _ => false

/-- The script without markup. -/
def lowerMarkup (m : Makers) (root : Node) : Option Node :=
  if root.any cannotLower then none else some (root.map (lowerElement m))

end PagePreview.Script.Lowering
