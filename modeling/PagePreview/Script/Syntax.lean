import PagePreview.Script.Operator

/-!
# Scripts as trees

A script is a tree of labelled nodes. A label, a `Kind`, says what a node is
and carries what is not a tree itself: names, texts, operators, flags. Parts
that may be missing are `absent`, and parts that may be repeated stand
together in a `group`, so every kind has a fixed number of children. They are
listed after each kind in the order in which they are stored.

Because there is one type of node, whatever has to be done everywhere in a
script is said once: `Node.any`, `Node.map`.

Parentheses are nodes of their own. A node that an operation takes apart in
the wrong shape is treated like an absent one.
-/

namespace PagePreview.Script

/-! ## What nodes carry -/

/-- How a function runs. -/
structure Routine where
  async : Bool := false
  generator : Bool := false
  /-- Whether a comment says that calls of it have no effects. -/
  effectFree : Bool := false
deriving DecidableEq, Repr

/-- Whether a function or class stands as a declaration or within an expression. -/
inductive Standing where
  | declaration
  | expression
deriving DecidableEq, Repr

inductive VariableKind where
  | var | «let» | const | disposed | awaitDisposed
deriving DecidableEq, Repr

def VariableKind.text : VariableKind → String
  | var => "var"
  | «let» => "let"
  | const => "const"
  | disposed => "using"
  | awaitDisposed => "await using"

/-- What a member of an object or a class is. -/
inductive MemberForm where
  | value | method | getter | setter
deriving DecidableEq, Repr

inductive Access where
  | «public» | «private» | «protected»
deriving DecidableEq, Repr

def Access.text : Access → String
  | «public» => "public"
  | «private» => "private"
  | «protected» => "protected"

/-- The words in front of a class, a member of one, or a parameter, and the marks behind its
name. -/
structure Modifiers where
  access : Option Access := none
  isDeclared : Bool := false
  isAbstract : Bool := false
  isStatic : Bool := false
  isOverride : Bool := false
  isReadonly : Bool := false
  isAccessor : Bool := false
  isOptional : Bool := false
  isDefinite : Bool := false
deriving DecidableEq, Repr

/-- A mark of a mapped type: none, bare, added or taken away. -/
inductive MappedMark where
  | none | bare | plus | minus
deriving DecidableEq, Repr

/-! ## Labels -/

inductive Kind where
  | absent
  /-- Any number of nodes. -/
  | group
  -- Names and literals
  | name (text : String)
  | privateName (text : String)
  /-- A text. In one that is `lossy` each surrogate without its partner stands as U+FFFD and four
  hexadecimal digits. -/
  | string (value : String) (lossy : Bool)
  | number (text : String)
  | bigint (text : String)
  | pattern (body flags : String)
  | boolean (value : Bool)
  | null
  | self
  | superclass
  /-- Chunks and expressions in turn, beginning and ending with a chunk. -/
  | template
  /-- The text between two expressions of a template: as written, and what it stands for. -/
  | chunk (raw : String) (cooked : Option String)
  -- Expressions
  /-- Elements, some of them `spread` or absent. -/
  | array
  /-- Properties, some of them `spread`. -/
  | object
  /-- expression -/
  | spread
  /-- key, value -/
  | property (form : MemberForm) (computed shorthand : Bool)
  /-- name, type parameters, parameters, result type, body -/
  | function (routine : Routine) (standing : Standing) (isDeclared : Bool)
  /-- type parameters, parameters, result type, body -/
  | arrow (routine : Routine)
  /-- decorators, pattern -/
  | parameter (modifiers : Modifiers)
  /-- Statements. -/
  | body
  /-- decorators, name, type parameters, base class, its type arguments, interfaces, members -/
  | classDef (standing : Standing) (modifiers : Modifiers)
  /-- operand -/
  | unary (op : UnaryOp)
  /-- operand -/
  | update (increment before : Bool)
  /-- left, right -/
  | binary (op : BinaryOp)
  /-- target, value -/
  | assign (op : Option BinaryOp)
  /-- test, then, else -/
  | conditional
  /-- callee, type arguments, arguments -/
  | call (optional pure : Bool)
  /-- callee, type arguments, arguments -/
  | construct (pure : Bool)
  /-- object, name -/
  | member (optional : Bool)
  /-- object, index -/
  | index (optional : Bool)
  /-- expression -/
  | chain
  /-- Expressions. -/
  | sequence
  /-- expression -/
  | await
  /-- expression -/
  | yield (delegate : Bool)
  /-- specifier, options -/
  | importCall (phase : Option String)
  | metaProperty (object property : String)
  /-- tag, type arguments, template -/
  | tagged
  /-- expression -/
  | paren
  /-- expression, type -/
  | asType
  /-- expression, type -/
  | satisfiesType
  /-- expression -/
  | nonNull
  /-- expression, type arguments -/
  | instantiation
  -- Patterns
  /-- Properties and at most one `rest`. -/
  | objectPattern
  /-- Elements, some of them absent, and at most one `rest`. -/
  | arrayPattern
  /-- Properties and at most one `rest`, to assign to. -/
  | objectTarget
  /-- Elements, some of them absent, and at most one `rest`, to assign to. -/
  | arrayTarget
  /-- key, pattern -/
  | propertyPattern (computed shorthand : Bool)
  /-- pattern, default -/
  | withDefault
  /-- pattern -/
  | rest
  /-- pattern, type -/
  | typed (optional definite : Bool)
  -- Markup
  /-- name, type arguments, attributes, children -/
  | element (closed : Bool)
  /-- Children. -/
  | fragment
  | tagName (text : String)
  | scopedName (scope text : String)
  /-- object, name -/
  | tagPath
  /-- name, value -/
  | markupAttribute
  /-- expression -/
  | attributeSpread
  | markupText (text : String)
  | markupString (text : String)
  /-- expression, or a `nothing` -/
  | container
  | nothing
  /-- expression -/
  | childSpread
  -- Statements
  /-- Statements, directives first. -/
  | program (hashbang : Option String)
  | directive (raw : String)
  /-- Statements. -/
  | block
  | empty
  /-- expression -/
  | expression
  /-- kind of binding; declarators -/
  | variables (kind : VariableKind) (isDeclared : Bool)
  /-- pattern, value -/
  | declarator
  /-- test, then, else -/
  | ifThen
  /-- start, test, step, body -/
  | forLoop
  /-- target, object, body -/
  | forIn
  /-- target, iterable, body -/
  | forOf (await : Bool)
  /-- test, body -/
  | whileLoop
  /-- body, test -/
  | doWhile
  | continueLoop (label : Option String)
  | breakOut (label : Option String)
  /-- expression -/
  | returnValue
  /-- object, body -/
  | withObject
  /-- subject, cases -/
  | switch
  /-- test, statements -/
  | case
  /-- body -/
  | labeled (label : String)
  /-- expression -/
  | throwValue
  /-- block, handler, finalizer -/
  | tryCatch
  /-- parameter, block -/
  | handler
  | debugger
  -- Modules
  /-- specifiers, source, attributes -/
  | importFrom (typeOnly : Bool) (phase : Option String)
  /-- local name -/
  | importDefault
  /-- local name -/
  | importNamespace
  /-- imported name, local name -/
  | importNamed (typeOnly : Bool)
  /-- specifiers, source, attributes -/
  | exportNamed (typeOnly : Bool)
  /-- local name, exported name -/
  | exportSpecifier (typeOnly : Bool)
  /-- declaration -/
  | exportDeclaration
  /-- declaration or expression -/
  | exportDefault
  /-- exported name, source, attributes -/
  | exportAll (typeOnly : Bool)
  /-- expression -/
  | exportAssign
  | exportAsNamespace (text : String)
  /-- Entries. -/
  | attributes (keyword : String)
  /-- key, value -/
  | attributeEntry
  /-- local name, reference -/
  | importEquals (typeOnly : Bool)
  /-- specifier -/
  | externalModule
  -- Classes
  /-- expression -/
  | decorator
  /-- decorators, key, function -/
  | method (form : MemberForm) (isConstructor computed : Bool) (modifiers : Modifiers)
  /-- decorators, key, type, value -/
  | field (computed : Bool) (modifiers : Modifiers)
  /-- Statements. -/
  | staticBlock
  -- Types
  | typeWord (text : String)
  /-- name, type arguments -/
  | typeReference
  /-- qualifier, name -/
  | qualified
  /-- Types. -/
  | typeArguments
  /-- Type parameters. -/
  | typeParameters
  /-- bound, default -/
  | typeParameter (text : String) (isConst isIn isOut : Bool)
  /-- Types. -/
  | union
  /-- Types. -/
  | intersection
  /-- element -/
  | arrayType
  /-- Types. -/
  | tuple
  /-- type -/
  | namedMember (text : String) (optional : Bool)
  /-- A type with a question or exclamation mark in front of it or behind it: type -/
  | markedType (mark : String) (behind : Bool)
  /-- type -/
  | restType
  /-- Members. -/
  | typeLiteral
  /-- key, type -/
  | propertySignature (computed : Bool) (modifiers : Modifiers)
  /-- key, type parameters, parameters, result type -/
  | methodSignature (form : MemberForm) (computed optional : Bool)
  /-- type parameters, parameters, result type -/
  | callSignature
  /-- type parameters, parameters, result type -/
  | constructSignature
  /-- type of the key, type of the value -/
  | indexSignature (text : String) (modifiers : Modifiers)
  /-- type parameters, parameters, result type -/
  | functionType
  /-- type parameters, parameters, result type -/
  | constructorType (isAbstract : Bool)
  /-- checked type, bound, then, else -/
  | conditionalType
  /-- bound -/
  | inferType (text : String)
  /-- type -/
  | typeOperator (text : String)
  /-- type, index -/
  | indexedAccess
  /-- domain, new key, type -/
  | mappedType (text : String) (readonly optional : MappedMark)
  /-- expression -/
  | literalType
  /-- Chunks and types in turn. -/
  | templateType
  /-- name, type -/
  | typePredicate (asserts : Bool)
  /-- name, type arguments -/
  | typeQuery
  /-- argument, options, qualifier, type arguments -/
  | importType
  /-- type -/
  | parenType
  /-- name, type parameters, type -/
  | typeAlias (isDeclared : Bool)
  /-- name, type parameters, bases, members -/
  | interfaceDef (isDeclared : Bool)
  /-- name, members -/
  | enumDef (isConst isDeclared : Bool)
  /-- key, value -/
  | enumMember
  /-- name, body -/
  | moduleDef (keyword : String) (isDeclared : Bool)
deriving DecidableEq, Repr

/-! ## Trees -/

/-- The part of the text that a node was read from. -/
structure Span where
  start : Nat := 0
  stop : Nat := 0
deriving DecidableEq, Repr

inductive Node where
  | mk (kind : Kind) (span : Span) (children : List Node)

namespace Node

def kind : Node → Kind
  | mk k _ _ => k

def span : Node → Span
  | mk _ s _ => s

def children : Node → List Node
  | mk _ _ cs => cs

instance : Inhabited Node := ⟨mk .absent {} []⟩

/-- The node that stands for a missing part. -/
def absent : Node := mk .absent {} []

def group (nodes : List Node) : Node := mk .group {} nodes

def isAbsent (n : Node) : Bool :=
  match n.kind with
  | .absent => true
  | _ => false

/-- A node that was not read from anywhere. -/
def made (kind : Kind) (children : List Node := []) : Node := mk kind {} children

def child (n : Node) (i : Nat) : Node := n.children.getD i absent

/-- The nodes of the group that is the child with that number. -/
def items (n : Node) (i : Nat) : List Node := (n.child i).children

/-! ### Going through a tree -/

mutual

/-- Whether some node of a tree satisfies `p`. -/
def any (p : Node → Bool) : Node → Bool
  | mk k s cs => p (mk k s cs) || anyAmong p cs

def anyAmong (p : Node → Bool) : List Node → Bool
  | [] => false
  | n :: ns => any p n || anyAmong p ns

end

mutual

/-- The nodes of a tree, each before its children. -/
def nodes : Node → List Node
  | mk k s cs => mk k s cs :: nodesAmong cs

def nodesAmong : List Node → List Node
  | [] => []
  | n :: ns => nodes n ++ nodesAmong ns

end

mutual

/-- The tree in which `f` has been applied to every node, to the inner ones first. -/
def map (f : Node → Node) : Node → Node
  | mk k s cs => f (mk k s (mapAmong f cs))

def mapAmong (f : Node → Node) : List Node → List Node
  | [] => []
  | n :: ns => map f n :: mapAmong f ns

end

mutual

/-- The number of nodes on a longest way down. -/
def height : Node → Nat
  | mk _ _ cs => heightAmong cs + 1

def heightAmong : List Node → Nat
  | [] => 0
  | n :: ns => max (height n) (heightAmong ns)

end

/-! ### Looking past parentheses -/

/-- The expression in any number of parentheses. -/
def bare : Node → Node
  | mk .paren _ [e] => bare e
  | n => n

/-- The expression in any number of parentheses and types. -/
def plain : Node → Node
  | mk .paren _ [e] => plain e
  | mk .nonNull _ [e] => plain e
  | mk .asType _ [e, _] => plain e
  | mk .satisfiesType _ [e, _] => plain e
  | mk .instantiation _ [e, _] => plain e
  | n => n

def name? (n : Node) : Option String :=
  match n.kind with
  | .name s => some s
  | _ => none

def string? (n : Node) : Option String :=
  match n.kind with
  | .string s _ => some s
  | _ => none

end Node

structure Comment where
  text : String
  /-- Where it begins. -/
  place : Nat
  isBlock : Bool
  afterNewline : Bool
  beforeNewline : Bool
  /-- Where the token begins that it stands in front of. One that belongs to no token is attached
  to its own place. -/
  attached : Nat
deriving DecidableEq, Repr

/-- The text of a comment without its marks. -/
def Comment.inside (c : Comment) : List Char :=
  let text := c.text.toList.drop 2
  if c.isBlock then text.dropLast.dropLast else text

/-- A script: its tree, and its comments, which are not part of the tree. -/
structure Program where
  root : Node
  comments : List Comment := []

end PagePreview.Script
