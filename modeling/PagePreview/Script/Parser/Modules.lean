import PagePreview.Script.Parser.Statements

/-!
# Imports and exports

The words that have a meaning between `import` and `from` can also be names
there: `import type from "a"` imports something that is called `type`.
-/

namespace PagePreview.Script.Parser

/-! ## Parts -/

def attributeEntry : Parser Node := do
  let place ← start
  let k ← moduleName
  expectMark ":"
  let v ← stringLiteral
  node place .attributeEntry [k, v]

/-- Whether two of some attributes have the same key. -/
def repeatsKey : List Node → Bool
  | [] => false
  | n :: ns =>
    let key (e : Node) : Option String := (e.child 0).name?.or (e.child 0).string?
    ns.any (key · == key n) || repeatsKey ns

/-- The attributes of an import, if there are some. -/
def importAttributes : Parser Node := do
  let place ← start
  let isAssert := (← isWord "assert") && !(← onNewLine)
  if (← isWord "with") || isAssert then
    advance
    let entries ← bracketed "\x7b" "\x7d" attributeEntry
    if repeatsKey entries.children then complain
    node place (.attributes (if isAssert then "assert" else "with")) entries.children
  else return .absent

/-- A name that may be given another one behind `as`, and whether it stands for a type. -/
def renamed : Parser (Bool × Node × Node) := do
  let first ← moduleName
  let another (a : Node) : Parser (Bool × Node × Node) := do
    if ← eatWord "as" then return (false, a, ← moduleName) else return (false, a, a)
  if !((← get).extended && first.name? == some "type") then another first
  else if ← isWord "as" then
    let firstAs ← moduleName
    if ← isWord "as" then
      let secondAs ← moduleName
      if isAnyName (← lexeme) then return (true, firstAs, ← moduleName)
      else return (false, first, secondAs)
    else if isAnyName (← lexeme) then return (false, first, ← moduleName)
    else return (true, firstAs, firstAs)
  else if isAnyName (← lexeme) || (match ← lexeme with | .string _ _ => true | _ => false) then
    let a ← moduleName
    if ← eatWord "as" then return (true, a, ← moduleName) else return (true, a, a)
  else return (false, first, first)

/-- Complains about a name that cannot be bound. -/
def checkBound (n : Node) : Parser Unit := do
  match n.name? with
  | some s =>
    let c ← context
    if reservedWords.contains s || (s == "await" && c.awaits) || (s == "yield" && c.yields) then
      complain
  | none => complain

/-- The words that no export without a source can name, besides those that are never names. -/
def unexportableWords : List String :=
  ["await", "yield", "implements", "interface", "let", "package", "private", "protected", "public",
    "static"]

/-- Complains about a name that cannot be exported. -/
def checkExported (n : Node) : Parser Unit := do
  match n.name? with
  | some s => if reservedWords.contains s || unexportableWords.contains s then complain
  | none => complain

/-! ## Imports -/

/-- A name that is imported. Where types are imported anyway, it does not say so again. -/
def importSpecifier (ofTypes : Bool) : Parser Node := do
  let place ← start
  let (typeOnly, imported, local_) ← renamed
  if typeOnly && ofTypes then complain
  checkBound local_
  node place (.importNamed typeOnly) [imported, local_]

/-- Names in braces, or a name for all of them. -/
def importSome (ofTypes : Bool) : Parser (List Node) := do
  let place ← start
  if ← eatMark "*" then
    expectWord "as"
    let name ← identifier
    return [← node place .importNamespace [name]]
  else return (← bracketed "\x7b" "\x7d" (importSpecifier ofTypes)).children

/-- Where an import comes from, and the end of the statement. -/
def importSource (place : Nat) (typeOnly : Bool) (phase : Option String) (specifiers : Node) :
    Parser Node := do
  let source ← stringLiteral
  let attributes ← importAttributes
  semicolon
  node place (.importFrom typeOnly phase) [specifiers, source, attributes]

/-- What an imported name is made equal to. -/
def importEquals (place : Nat) (typeOnly : Bool) (name : Node) : Parser Node := do
  expectMark "="
  let inner ← start
  let r ← do
    if (← isWord "require") && (← followedByMark "(") then
      advance
      advance
      let s ← stringLiteral
      expectMark ")"
      node inner .externalModule [s]
    else entityName
  semicolon
  node place (.importEquals typeOnly) [name, r]

/-- Whether the word here says something about the import rather than being what it imports. -/
def qualifiesImport (w : String) (braces : Bool) : Parser Bool := looking do
  if !(← isWord w) then return false
  advance
  if ← isMark "*" then return w != "source"
  if ← isMark "\x7b" then return braces
  if w == "defer" || !isIdentifier (← lexeme) then return false
  if !(← eatWord "from") then return true
  isWord "from"

/-- Whether the word `from` is here, with a text behind it. -/
def namesNothing : Parser Bool := do
  let t ← following
  return (← isWord "from") && (match t.lexeme with | .string _ _ => true | _ => false)

/-- An import, from the token behind the word `import` on. The word `from` may stand in front of
the specifier although nothing is named. -/
def importFrom (place : Nat) : Parser Node := do
  if ← namesNothing then advance
  match ← lexeme with
  | .string _ _ => importSource place false none .absent
  | _ =>
    let typeOnly ← do
      if (← get).extended && (← qualifiesImport "type" true) then advance; pure true
      else pure false
    let phase ← do
      if typeOnly then pure none
      else if ← qualifiesImport "defer" false then advance; pure (some "defer")
      else if ← qualifiesImport "source" false then advance; pure (some "source")
      else pure none
    let inner ← start
    if isIdentifier (← lexeme) then
      let name ← identifier
      if (← get).extended && (← isMark "=") then return ← importEquals place typeOnly name
      let first ← node inner .importDefault [name]
      let more ← if ← eatMark "," then importSome typeOnly else pure []
      let g ← node inner .group (first :: more)
      expectWord "from"
      importSource place typeOnly phase g
    else
      let ns ← importSome typeOnly
      let g ← node inner .group ns
      expectWord "from"
      importSource place typeOnly phase g

/-! ## Exports -/

/-- A name that is exported. Where types are exported anyway, it does not say so again. -/
def exportSpecifier (ofTypes : Bool) : Parser Node := do
  let place ← start
  let (typeOnly, local_, exported) ← renamed
  if typeOnly && ofTypes then complain
  node place (.exportSpecifier typeOnly) [local_, exported]

/-- Names in braces, perhaps from somewhere else. -/
def exportNames (place : Nat) (typeOnly : Bool) : Parser Node := do
  let names ← bracketed "\x7b" "\x7d" (exportSpecifier typeOnly)
  let source ← do
    if ← eatWord "from" then
      match ← lexeme with
      | .string _ _ => stringLiteral
      | _ => pure .absent
    else pure .absent
  if source.isAbsent then
    for n in names.children do checkExported (n.child 0)
    semicolon
    node place (.exportNamed typeOnly) [names, .absent, .absent]
  else
    let attributes ← importAttributes
    semicolon
    node place (.exportNamed typeOnly) [names, source, attributes]

/-- Everything from somewhere else, from the asterisk on. -/
def exportAll (place : Nat) (typeOnly : Bool) : Parser Node := do
  advance
  let exported ← do
    if ← eatWord "as" then moduleName else pure .absent
  expectWord "from"
  let source ← stringLiteral
  let attributes ← importAttributes
  semicolon
  node place (.exportAll typeOnly) [exported, source, attributes]

def exportDefault (rules : Rules) (place : Nat) (ds : Node) : Parser Node := do
  advance
  let inner ← start
  let t ← following
  let own ← decorators rules
  let ds := if own.isAbsent then ds else own
  if ← isWord "function" then
    let f ← function rules inner false .declaration false false
    node place .exportDefault [f]
  else if (← isWord "async") && t.lexeme == .word "function" false && !t.onNewLine then
    advance
    let f ← function rules inner true .declaration false false
    node place .exportDefault [f]
  else if ← isWord "class" then
    let c ← classFrom rules inner ds .declaration {}
    node place .exportDefault [c]
  else if (← isWord "abstract") && t.lexeme == .word "class" false && !t.onNewLine then
    advance
    let c ← classFrom rules inner ds .declaration { isAbstract := true }
    node place .exportDefault [c]
  else if (← isWord "interface") && isIdentifier t.lexeme && !t.onNewLine &&
      (← get).extended then
    let i ← interfaceDefinition rules inner false
    node place .exportDefault [i]
  else
    let e ← plainAssignment rules
    semicolon
    node place .exportDefault [e]

/-- An export, with the decorators in front of it. -/
def exportStatement (rules : Rules) (place : Nat) (ds : Node) : Parser Node := do
  advance
  let t ← following
  let extended := (← get).extended
  match ← lexeme with
  | .mark "=" =>
    if !extended then failure
    advance
    let e ← plainExpression rules
    semicolon
    node place .exportAssign [e]
  | .mark "*" => exportAll place false
  | .mark "\x7b" => exportNames place false
  | .word "default" false => exportDefault rules place ds
  | .word "as" false =>
    advance
    expectWord "namespace"
    match (← identifier).name? with
    | some name => semicolon; node place (.exportAsNamespace name)
    | none => failure
  | .word "import" false =>
    let inner ← start
    advance
    let i ← importFrom inner
    match i.kind with
    | .importEquals _ => node place .exportDeclaration [i]
    | _ => failure
  | .word "type" false =>
    if extended && t.lexeme == .mark "\x7b" then advance; exportNames place true
    else if extended && t.lexeme == .mark "*" then advance; exportAll place true
    else exported
  | _ => exported
where
  exported : Parser Node := do
    let own ← decorators rules
    let ds := if own.isAbsent then ds else own
    let inner ← start
    match ← declaration? rules inner ds with
    | some d =>
      match d.kind with
      | .variables kind _ => if isDisposed kind then complain
      | _ => pure ()
      node place .exportDeclaration [d]
    | none => failure

end PagePreview.Script.Parser
