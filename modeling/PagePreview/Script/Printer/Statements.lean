import PagePreview.Script.Printer.Types

/-!
# Printing statements

A statement begins with the comments in front of it, on a line of its own
unless it is the body of another one, and ends its line. Declarations of types
are indented before their comments rather than behind them, and an enumeration
is indented twice.
-/

namespace PagePreview.Script.Printer

open Writer

/-- The end of a simple statement. -/
def stop : Writer Unit := put ";\n"

/-! ## Bodies -/

/-- Whether the first of some statements is a text, which must not be taken for a directive. -/
def looksDirective (n : Node) : Bool :=
  match n.kind, ((n.child 0).bare).kind with
  | .expression, .string _ _ => true
  | _, _ => false

/-- Directives and statements. -/
def statements (w : Shapes) (ns : List Node) (p : Place) : Writer Unit :=
  match ns with
  | n :: rest =>
    if looksDirective n then do
      put "("
      w (n.child 0).bare p
      put ")"
      stop
      for r in rest do w r p
    else for r in ns do w r p
  | [] => pure ()

def block (w : Shapes) (n : Node) (p : Place) : Writer Unit :=
  braces n.children.isEmpty do
    for c in n.children do w c p

/-- Statements in braces with the comments in front of the closing one. -/
def body (w : Shapes) (n : Node) (p : Place) : Writer Unit := do
  let o ← get
  let behind := o.comments.filter (·.attached + 1 == n.span.stop)
  let single := n.children.isEmpty && behind.all fun c => !c.afterNewline && !c.beforeNewline
  braces single do
    statements w n.children p
    leading (n.span.stop - 1)
  if single then modify fun o => { o with inLine := false }

def isBlock (n : Node) : Bool :=
  match n.kind with
  | .block => true
  | _ => false

/-- A statement that belongs to the one in front of it. -/
def follower (w : Shapes) (n : Node) (p : Place) : Writer Unit :=
  match n.kind with
  | .block => do
    space
    block w n p
    newline
  | .empty => stop
  | _ => do
    modify fun o => { o with inLine := true }
    w n p

/-- An expression in parentheses. -/
def inParentheses (w : Shapes) (n : Node) : Writer Unit := do
  put "("
  w n {}
  put ")"

/-! ## Conditions and loops -/

/-- Whether an `else` behind a statement would be taken for a part of it. -/
def takesElse : (fuel : Nat) → Node → Bool
  | 0, _ => false
  | fuel + 1, n =>
    match n.kind with
    | .ifThen => (n.child 2).isAbsent || takesElse fuel (n.child 2)
    | .forLoop => takesElse fuel (n.child 3)
    | .forIn | .forOf _ => takesElse fuel (n.child 2)
    | .whileLoop | .withObject => takesElse fuel (n.child 1)
    | .labeled _ => takesElse fuel (n.child 0)
    | _ => false

/-- What a condition decides about, and the conditions in the place of its `else`. -/
def ifThen (w : Shapes) (p : Place) : (fuel : Nat) → Node → Writer Unit
  | 0, _ => pure ()
  | fuel + 1, n => do
    let yes := n.child 1
    let no := n.child 2
    put "if "
    inParentheses w (n.child 0)
    let behind : Writer Unit := if no.isAbsent then newline else space
    if isBlock yes then
      space
      block w yes p
      behind
    else if takesElse yes.height yes then
      space
      put "\x7b"
      newline
      more
      w yes p
      less
      indentation
      put "\x7d"
      behind
    else
      follower w yes p
      if !no.isAbsent then indentation
    if !no.isAbsent then
      put "else"
      match no.kind with
      | .ifThen => space; ifThen w p fuel no
      | _ => follower w no p

/-- Variables without the end of the statement. -/
def bindings (w : Shapes) (kind : VariableKind) (isDeclared : Bool) (n : Node) (p : Place) :
    Writer Unit := do
  if isDeclared then put "declare "
  put kind.text
  if !n.children.isEmpty then space
  joined commaSpace (w · p) n.children

/-- What a loop begins with: variables or an expression. -/
def loopStart (w : Shapes) (n : Node) (p : Place) : Writer Unit :=
  match n.kind with
  | .variables kind isDeclared => bindings w kind isDeclared n p
  | _ => w n p

def forLoop (w : Shapes) (n : Node) (p : Place) : Writer Unit := do
  put "for ("
  loopStart w (n.child 0) { noIn := true }
  put ";"
  if !(n.child 1).isAbsent then
    space
    w (n.child 1) {}
  put ";"
  if !(n.child 2).isAbsent then
    space
    w (n.child 2) {}
  put ")"
  follower w (n.child 3) p

def forOver (w : Shapes) (text : String) (isAwait : Bool) (n : Node) (p : Place) :
    Writer Unit := do
  put (if isAwait then "for await (" else "for (")
  let t := n.child 0
  wrap (t.bare.name? == some "async") (loopStart w t { noIn := true })
  space
  word text
  space
  w (n.child 1) (Place.at_ (if text == "of" then Level.comma else Level.lowest))
  put ")"
  follower w (n.child 2) p

def doWhile (w : Shapes) (n : Node) (p : Place) : Writer Unit := do
  let b := n.child 0
  put "do"
  if isBlock b then
    space
    block w b p
    space
  else
    newline
    more
    w b p
    less
    indentation
  put "while "
  inParentheses w (n.child 1)
  stop

/-! ## Other statements -/

def case (w : Shapes) (n : Node) (p : Place) : Writer Unit := do
  indentation
  if (n.child 0).isAbsent then put "default"
  else
    put "case "
    w (n.child 0) {}
  put ":"
  match n.children.drop 1 with
  | [b] => follower w b p
  | bs =>
    newline
    more
    for b in bs do w b p
    less

/-- A block with what handles its errors, and the comments in front of that. -/
def tryCatch (w : Shapes) (n : Node) (p : Place) : Writer Unit := do
  put "try "
  block w (n.child 0) p
  let h := n.child 1
  if !h.isAbsent then
    space
    leading h.span.start
    put "catch"
    if !(h.child 0).isAbsent then
      space
      inParentheses w (h.child 0)
    space
    block w (h.child 1) p
  if !(n.child 2).isAbsent then
    put " finally "
    block w (n.child 2) p
  newline

/-- The quote that a directive does not contain. -/
def directiveQuote : List Char → Char
  | [] => '"'
  | '\\' :: _ :: cs => directiveQuote cs
  | c :: cs => if c == '"' then '\'' else if c == '\'' then '"' else directiveQuote cs

def directive (raw : String) : Writer Unit := do
  let q := directiveQuote raw.toList
  putChars (q :: raw.toList ++ [q])
  stop

/-! ## Classes -/

def accessWord (m : Modifiers) : List String := (m.access.map Access.text).toList

/-- The word for a modifier, if it is there. -/
def wordIf (condition : Bool) (word : String) : List String := if condition then [word] else []

/-- The words in front of a class. -/
def classWords (m : Modifiers) : List String :=
  wordIf m.isDeclared "declare" ++ wordIf m.isAbstract "abstract"

/-- The words in front of a parameter. -/
def parameterWords (m : Modifiers) : List String :=
  accessWord m ++ wordIf m.isOverride "override" ++ wordIf m.isReadonly "readonly"

/-- The words in front of a method. -/
def methodModifiers (m : Modifiers) : List String :=
  accessWord m ++ wordIf m.isAbstract "abstract" ++ wordIf m.isStatic "static"

/-- The words in front of a field. -/
def fieldWords (m : Modifiers) : List String :=
  if m.isAccessor then
    wordIf m.isAbstract "abstract" ++ accessWord m ++ wordIf m.isStatic "static" ++
      wordIf m.isOverride "override" ++ ["accessor"]
  else
    wordIf m.isDeclared "declare" ++ accessWord m ++ wordIf m.isAbstract "abstract" ++
      wordIf m.isStatic "static" ++ wordIf m.isReadonly "readonly"

/-- Words with a blank behind each. -/
def words (ws : List String) : Writer Unit := do
  for s in ws do put (s ++ " ")

def decorators (w : Shapes) (ds : Node) : Writer Unit := do
  for d in ds.children do
    w d {}
    space

/-- Whether the expression of a decorator needs no parentheses. -/
def isPlainDecorator : Node → Bool
  | .mk (.name _) _ _ => true
  | .mk (.member false) _ _ => true
  | .mk (.call false _) _ (f :: _) => isPlainDecorator f
  | _ => false

def parameter (w : Shapes) (m : Modifiers) (n : Node) : Writer Unit := do
  decorators w (n.child 0)
  words (parameterWords m)
  w (n.child 1) {}

/-- A class. One without a name is printed without type parameters as well. -/
def classDef (w : Shapes) (standing : Standing) (m : Modifiers) (n : Node) (p : Place) :
    Writer Unit := do
  let o ← get
  let begins := o.statementStart == some o.length || o.defaultStart == some o.length
  wrap (standing == .expression && begins) do
    decorators w (n.child 0)
    gap
    words (classWords m)
    put "class"
    if !(n.child 1).isAbsent then
      space
      w (n.child 1) p
      w (n.child 2) p
    if !(n.child 3).isAbsent then
      put " extends "
      w (n.child 3) (Place.at_ Level.update)
      w (n.child 4) p
    match n.items 5 with
    | [] => pure ()
    | is =>
      put " implements "
      joined commaSpace (w · p) is
    space
    braces (n.items 6).isEmpty do
      for m in n.items 6 do
        leading m.span.start
        indentation
        w m p
        match m.kind with
        | .indexSignature .. => stop
        | _ => pure ()

def classMethod (w : Shapes) (form : MemberForm) (computed : Bool) (m : Modifiers) (n : Node)
    (p : Place) : Writer Unit := do
  decorators w (n.child 0)
  words (methodModifiers m)
  methodWords form (n.child 2)
  key w computed (n.child 1) {}
  if m.isOptional then put "?"
  functionHead w (n.child 2) p
  functionBody w (n.child 2) p
  newline

def field (w : Shapes) (computed : Bool) (m : Modifiers) (n : Node) (p : Place) :
    Writer Unit := do
  decorators w (n.child 0)
  words (fieldWords m)
  key w computed (n.child 1) {}
  if m.isAccessor then
    if m.isDefinite then put "!"
  else if m.isOptional then put "?"
  ascription w (n.child 2) p
  if !(n.child 3).isAbsent then
    put " = "
    w (n.child 3) (Place.at_ Level.comma)
  stop

/-! ## Modules -/

/-- A text or a word that something is imported or exported by. -/
def moduleName (n : Node) : Writer Unit :=
  match n.kind with
  | .name s => put s
  | .string s lossy => putChars (Literal.quoted lossy s)
  | _ => pure ()

def moduleText (n : Node) : String := (n.name?.orElse fun _ => n.string?).getD ""

/-- A name and the other name that it is given. -/
def renamed (typeOnly : Bool) (a b : Node) : Writer Unit := do
  if typeOnly then put "type "
  moduleName a
  if moduleText a != moduleText b then
    put " as "
    moduleName b

def attributes (w : Shapes) (n : Node) : Writer Unit := do
  match n.kind with
  | .attributes keyword =>
    put (" " ++ keyword ++ " \x7b")
    if !n.children.isEmpty then
      space
      joined commaSpace (w · {}) n.children
      space
    put "\x7d"
  | _ => pure ()

/-- The specifiers of an import, those in braces together. -/
def importSpecifiers (w : Shapes) (ns : List Node) : Writer Unit := do
  let isNamed (n : Node) : Bool := match n.kind with
    | .importNamed _ => true
    | _ => false
  joined commaSpace (w · {}) (ns.filter (!isNamed ·))
  match ns.filter isNamed with
  | [] => pure ()
  | named =>
    if ns.length != named.length then put ", "
    put "\x7b "
    joined commaSpace (w · {}) named
    put " \x7d"

/-- An import. Where nothing is imported by name, the braces for it stay, and the specifier
stands between its quotes as it is. -/
def importFrom (w : Shapes) (typeOnly : Bool) (phase : Option String) (n : Node) :
    Writer Unit := do
  put "import"
  if typeOnly then put " type"
  match phase with
  | some s => put (" " ++ s)
  | none => pure ()
  let specifiers := n.child 0
  if !specifiers.isAbsent then
    space
    if specifiers.children.isEmpty then put "\x7b\x7d" else importSpecifiers w specifiers.children
    put " from"
  space
  if !specifiers.isAbsent && specifiers.children.isEmpty then
    put ("\"" ++ moduleText (n.child 1) ++ "\"")
  else moduleName (n.child 1)
  attributes w (n.child 2)
  stop

def exportNamed (w : Shapes) (typeOnly : Bool) (n : Node) : Writer Unit := do
  put (if typeOnly then "export type \x7b" else "export \x7b")
  if !(n.items 0).isEmpty then
    space
    joined commaSpace (w · {}) (n.items 0)
    space
  put "\x7d"
  if !(n.child 1).isAbsent then
    put " from "
    moduleName (n.child 1)
    attributes w (n.child 2)
  stop

def exportAll (w : Shapes) (typeOnly : Bool) (n : Node) : Writer Unit := do
  put (if typeOnly then "export type *" else "export *")
  if !(n.child 0).isAbsent then
    put " as "
    moduleName (n.child 0)
  put " from "
  moduleName (n.child 1)
  attributes w (n.child 2)
  stop

/-- The name of a module, with the names of those within it that it only stands for. -/
def moduleDef (w : Shapes) (p : Place) : (fuel : Nat) → Node → Writer Unit
  | 0, _ => pure ()
  | fuel + 1, n =>
    match (n.child 1).kind with
    | .moduleDef _ _ => do
      put "."
      moduleName ((n.child 1).child 0)
      moduleDef w p fuel (n.child 1)
    | .block => do
      space
      braces (n.items 1).isEmpty (statements w (n.items 1) p)
    | _ => put ";"

/-! ## Declarations -/

/-- A declaration without what surrounds it, and whether a semicolon ends it. -/
def declaration (w : Shapes) (n : Node) (p : Place) : Writer Unit :=
  match n.kind with
  | .variables kind isDeclared => bindings w kind isDeclared n p
  | .typeAlias isDeclared => do
    if isDeclared then put "declare "
    put "type "
    w (n.child 0) p
    w (n.child 1) p
    put " = "
    w (n.child 2) p
  | .interfaceDef _ => do
    put "interface "
    w (n.child 0) p
    w (n.child 1) p
    if !(n.items 2).isEmpty then
      put " extends "
      joined commaSpace (w · p) (n.items 2)
    space
    typeMembers w (n.items 3) p
  | .enumDef isConst isDeclared => do
    indentation
    if isDeclared then put "declare "
    if isConst then put "const "
    put "enum "
    w (n.child 0) p
    space
    let members := n.items 1
    braces members.isEmpty do
      for m in members.dropLast do
        leading m.span.start
        indentation
        w m p
        put ","
        newline
      for m in members.getLast?.toList do
        leading m.span.start
        indentation
        w m p
        newline
  | .moduleDef keyword isDeclared => do
    if isDeclared then put "declare "
    put keyword
    if keyword != "global" then
      space
      moduleName (n.child 0)
    moduleDef w p n.height n
  | .importEquals typeOnly => do
    put (if typeOnly then "import type " else "import ")
    w (n.child 0) p
    put " = "
    w (n.child 1) p
  | .function routine standing isDeclared => function w routine standing isDeclared n p
  | .classDef standing m => classDef w standing m n p
  | _ => pure ()

/-- Whether a declaration is ended by a semicolon. -/
def endsWithSemicolon (n : Node) : Bool :=
  match n.kind with
  | .variables _ _ | .typeAlias _ | .importEquals _ => true
  | _ => false

def declarationEnd (n : Node) : Writer Unit := if endsWithSemicolon n then stop else newline

def exportDefault (w : Shapes) (n : Node) (p : Place) : Writer Unit := do
  put "export default "
  let d := n.child 0
  match d.kind with
  | .function _ .declaration _ | .classDef .declaration _ =>
    declaration w d p
    newline
  | .interfaceDef _ => declaration w d p
  | _ =>
    modify fun o => { o with defaultStart := some o.length }
    w d (Place.at_ Level.comma)
    stop

/-! ## All of them -/

/-- The statement that begins a line or follows another one. -/
def line (n : Node) (p : Writer Unit) : Writer Unit := do
  leading n.span.start
  indentation
  p

/-- A declaration of types, whose line begins in front of its comments. -/
def typeLine (n : Node) (p : Writer Unit) : Writer Unit := do
  indentation
  leading n.span.start
  p

/-- Whether a node is a function that is marked as having no effects. -/
def isEffectFree (n : Node) : Bool :=
  match n.kind with
  | .function routine _ _ => routine.effectFree
  | _ => false

/-- An export with the mark of the function that it exports. -/
def exportLine (n : Node) (p : Writer Unit) : Writer Unit := do
  leading n.span.start
  if isEffectFree (n.child 0) then
    put effectFreeMark
    newline
  indentation
  p

/-- A statement or a part of one, a type or an expression. -/
def statement (w : Shapes) (n : Node) (p : Place) : Writer Unit :=
  let q := p.around
  match n.kind with
  | .program hashbang => do
    match hashbang with
    | some s => put s; newline
    | none => pure ()
    statements w n.children q
    leading n.span.stop
  | .body => body w n q
  | .directive raw => line n (directive raw)
  | .block => line n do block w n q; newline
  | .empty => line n stop
  | .expression => line n do
    modify fun o => { o with statementStart := some o.length }
    w (n.child 0) {}
    if (n.child 0).plain.name? == some "let" then put ";" else stop
  | .variables _ _ => line n do declaration w n q; stop
  | .declarator => do
    w (n.child 0) {}
    if !(n.child 1).isAbsent then
      put " = "
      w (n.child 1) (p.asking Level.comma)
  | .classDef .expression m => classDef w .expression m n q
  | .function _ .declaration _ => line n do
    if isEffectFree n then
      put effectFreeMark
      newline
      indentation
    declaration w n q
    newline
  | .classDef .declaration _ => line n do declaration w n q; newline
  | .typeAlias _ | .interfaceDef _ | .enumDef _ _ | .moduleDef _ _ | .importEquals _ =>
    typeLine n do declaration w n q; declarationEnd n
  | .ifThen => line n (ifThen w q n.height n)
  | .forLoop => line n (forLoop w n q)
  | .forIn => line n (forOver w "in" false n q)
  | .forOf isAwait => line n (forOver w "of" isAwait n q)
  | .whileLoop => line n do
    put "while "
    inParentheses w (n.child 0)
    follower w (n.child 1) q
  | .doWhile => line n (doWhile w n q)
  | .continueLoop label => line n do put ("continue" ++ labelText label); stop
  | .breakOut label => line n do put ("break" ++ labelText label); stop
  | .returnValue => line n do
    put "return"
    if !(n.child 0).isAbsent then
      space
      w (n.child 0) {}
    stop
  | .withObject => line n do
    put "with"
    inParentheses w (n.child 0)
    follower w (n.child 1) q
  | .switch => line n do
    put "switch "
    inParentheses w (n.child 0)
    space
    braces (n.items 1).isEmpty do
      for c in n.items 1 do case w c q
    newline
  | .labeled label => line n do
    put (label ++ ":")
    follower w (n.child 0) q
  | .throwValue => line n do
    put "throw "
    w (n.child 0) {}
    stop
  | .tryCatch => line n (tryCatch w n q)
  | .debugger => line n do put "debugger"; stop
  | .importFrom typeOnly phase => line n (importFrom w typeOnly phase n)
  | .importDefault => w (n.child 0) {}
  | .importNamespace => do
    put "* as "
    w (n.child 0) {}
  | .importNamed typeOnly => renamed typeOnly (n.child 0) (n.child 1)
  | .exportNamed typeOnly => line n (exportNamed w typeOnly n)
  | .exportSpecifier typeOnly => renamed typeOnly (n.child 0) (n.child 1)
  | .exportDeclaration => exportLine n do
    put "export "
    declaration w (n.child 0) q
    declarationEnd (n.child 0)
  | .exportDefault => exportLine n (exportDefault w n q)
  | .exportAll typeOnly => line n (exportAll w typeOnly n)
  | .exportAssign => do
    indentation
    put "export = "
    w (n.child 0) q
    stop
  | .exportAsNamespace s => do
    indentation
    put ("export as namespace " ++ s)
    stop
  | .attributeEntry => do
    moduleName (n.child 0)
    put ": "
    moduleName (n.child 1)
  | .externalModule => do
    put "require("
    moduleName (n.child 0)
    put ")"
  | .parameter m => parameter w m n
  | .decorator => do
    put "@"
    wrap (!isPlainDecorator (n.child 0)) (w (n.child 0) {})
  | .method form _ computed m => classMethod w form computed m n q
  | .field computed m => field w computed m n q
  | .staticBlock => do
    put "static "
    block w n q
    newline
  | .enumMember => do
    key w false (n.child 0) {}
    if !(n.child 1).isAbsent then
      put " = "
      w (n.child 1) q
  | _ => type w n p
where
  labelText (label : Option String) : String := (label.map (" " ++ ·)).getD ""

end PagePreview.Script.Printer
