import PagePreview.Script.Printer.Expressions

/-!
# Printing types

The members of an object type stand on lines of their own. A single type
parameter is followed by a comma, so that it cannot be taken for a tag.
Numbers stay as they are written.
-/

namespace PagePreview.Script.Printer

open Writer

/-- Types with a sign between them. -/
def typesJoined (w : Shapes) (between : String) (n : Node) (p : Place) : Writer Unit :=
  joined (put between) (w · p) n.children

def typeParameters (w : Shapes) (n : Node) (p : Place) : Writer Unit := do
  put "<"
  match n.children with
  | [q] => w q p; put ","
  | qs => lines (w · p) qs
  put ">"

def typeParameter (w : Shapes) (name : String) (isConst isIn isOut : Bool) (n : Node) :
    Writer Unit := do
  if isConst then put "const "
  if isIn then put "in "
  if isOut then put "out "
  put name
  if !(n.child 0).isAbsent then
    put " extends "
    w (n.child 0) {}
  if !(n.child 1).isAbsent then
    put " = "
    w (n.child 1) {}

/-- Members in braces, each with a semicolon. -/
def typeMembers (w : Shapes) (members : List Node) (p : Place) : Writer Unit :=
  braces members.isEmpty do
    for m in members do
      leading m.span.start
      indentation
      w m p
      put ";"
      newline

/-- The parameters and the result of a function type. -/
def functionType (w : Shapes) (n : Node) (p : Place) : Writer Unit := do
  w (n.child 0) p
  parameters w (n.items 1) p
  put " => "
  w (n.child 2) p

/-- A signature without what is in front of its type parameters, which are the child with the
given number. -/
def signature (w : Shapes) (n : Node) (i : Nat) (p : Place) : Writer Unit := do
  w (n.child i) p
  parameters w (n.items (i + 1)) p
  ascription w (n.child (i + 2)) p

def markText (m : MappedMark) (s : String) : String :=
  match m with
  | .none => ""
  | .bare => s
  | .plus => "+" ++ s
  | .minus => "-" ++ s

def mappedType (w : Shapes) (name : String) (readonly optional : MappedMark) (n : Node) :
    Writer Unit := do
  put "\x7b "
  if readonly != .none then
    put (markText readonly "readonly")
    space
  put ("[" ++ name ++ " in ")
  w (n.child 0) {}
  if !(n.child 1).isAbsent then
    put " as "
    w (n.child 1) {}
  put "]"
  put (markText optional "?")
  space
  ascription w (n.child 2) {}
  put " \x7d"

def importType (w : Shapes) (n : Node) : Writer Unit := do
  put "import("
  w (n.child 0) {}
  if !(n.child 1).isAbsent then
    put ", "
    w (n.child 1) {}
  put ")"
  if !(n.child 2).isAbsent then
    put "."
    w (n.child 2) {}
  w (n.child 3) {}

/-- A type or a part of one, or an expression. -/
def type (w : Shapes) (n : Node) (p : Place) : Writer Unit :=
  let inner : Place := { p.around with inType := true }
  let child (i : Nat) : Writer Unit := w (n.child i) inner
  match n.kind with
  | .typeWord s => put s
  | .typeReference => do child 0; child 1
  | .qualified => do
    child 0
    put "."
    match (n.child 1).name? with
    | some s => put s
    | none => pure ()
  | .typeArguments => do
    put "<"
    joined commaSpace (w · inner) n.children
    put ">"
  | .typeParameters => typeParameters w n p.around
  | .typeParameter name isConst isIn isOut => typeParameter w name isConst isIn isOut n
  | .union => typesJoined w " | " n inner
  | .intersection => typesJoined w " & " n inner
  | .arrayType => do child 0; put "[]"
  | .tuple => do
    put "["
    joined commaSpace (w · inner) n.children
    put "]"
  | .namedMember name optional => do
    put name
    if optional then put "?"
    put ": "
    child 0
  | .markedType mark behind => do
    if !behind then put mark
    child 0
    if behind then put mark
  | .restType => do put "..."; child 0
  | .typeLiteral => typeMembers w n.children inner
  | .propertySignature computed modifiers => do
    if modifiers.isReadonly then put "readonly "
    key w computed (n.child 0) p
    if modifiers.isOptional then put "?"
    ascription w (n.child 1) p
  | .methodSignature form computed optional => do
    match form with
    | .getter => put "get "
    | .setter => put "set "
    | _ => pure ()
    key w computed (n.child 0) p
    if optional then put "?"
    signature w n 1 p.around
  | .callSignature => signature w n 0 p.around
  | .constructSignature => do put "new "; signature w n 0 p.around
  | .indexSignature name modifiers => do
    if modifiers.isReadonly then put "readonly "
    put ("[" ++ name ++ ": ")
    child 0
    put "]"
    ascription w (n.child 1) p
  | .functionType => functionType w n inner
  | .constructorType isAbstract => do
    if isAbstract then put "abstract "
    put "new "
    functionType w n inner
  | .conditionalType => do
    child 0
    put " extends "
    child 1
    put " ? "
    child 2
    put " : "
    child 3
  | .inferType name => do
    put ("infer " ++ name)
    if !(n.child 0).isAbsent then
      put " extends "
      child 0
  | .typeOperator s => do put (s ++ " "); child 0
  | .indexedAccess => do
    child 0
    put "["
    child 1
    put "]"
  | .mappedType name readonly optional => mappedType w name readonly optional n
  | .literalType => w (n.child 0) (inner.asking Level.comma)
  | .templateType => template (w · inner) n
  | .typePredicate asserts => do
    if asserts then put "asserts "
    child 0
    if !(n.child 1).isAbsent then
      put " is "
      child 1
  | .typeQuery => do
    put "typeof "
    child 0
    child 1
  | .importType => importType w n
  | .parenType => do
    put "("
    child 0
    put ")"
  | _ => expression w n p

end PagePreview.Script.Printer
