import PagePreview.Script.Parser.Markup

/-!
# Statements

Declarations of types begin with words that are names elsewhere, so a few
tokens are looked at before a statement is taken for one. Where a single
statement is the body of another one, only some declarations are allowed.
-/

namespace PagePreview.Script.Parser

/-! ## Variables -/

def declarator (rules : Rules) : Parser Node := do
  let place ← start
  let p ← rules .pattern
  let extended := (← get).extended
  let definite ← do
    if extended && p.name?.isSome && (← isMark "!") && !(← onNewLine) then advance; pure true
    else pure false
  let isOptional ← if extended then eatMark "?" else pure false
  let t ← ascription rules
  let p ← if t.isAbsent && !definite && !isOptional then pure p
    else node place (.typed isOptional definite) [p, t]
  let v ← optional (← eatMark "=") (rules (.assignment true))
  node place .declarator [p, v]

/-- Whether variables of some kind are disposed of. -/
def isDisposed : VariableKind → Bool
  | .disposed | .awaitDisposed => true
  | _ => false

/-- What a declarator binds, without its type. -/
def boundPattern (d : Node) : Node :=
  match d.child 0 with
  | .mk (.typed _ _) _ (p :: _) => p
  | p => p

/-- Complains about a variable that needs a value and has none. -/
def checkValue (kind : VariableKind) (d : Node) : Parser Unit := do
  if (d.child 1).isAbsent && !(← context).ambient then
    if (boundPattern d).name?.isNone then complainOf (.expected ["="] "initializer")
    else if kind == .const then
      if (← lexeme) == .finish then complain
      else complainOf (.illegal "Expected initializer for const declaration")

/-- Variables from the word that declares them on, without the end of the statement. In a
`complete` statement each one has the value that it needs. -/
def declarators (rules : Rules) (place : Nat) (kind : VariableKind) (isDeclared complete : Bool) :
    Parser Node := do
  advance
  if kind == .awaitDisposed then advance
  let one : Parser Node := do
    let d ← declarator rules
    if complete then checkValue kind d
    if isDisposed kind then
      if (boundPattern d).name?.isNone || (complete && (d.child 1).isAbsent) then complain
    return d
  let first ← one
  let more ← repeated do
    if ← eatMark "," then return some (← one) else return none
  node place (.variables kind isDeclared) (first :: more)

def variableStatement (rules : Rules) (place : Nat) (kind : VariableKind) (isDeclared : Bool) :
    Parser Node := do
  let v ← declarators rules place kind isDeclared true
  if kind == .var then semicolonIn "variable statement"
  else if !(← eatMark ";") then
    if !(← endsLine) then missing [";", "line terminator"] "lexical declaration binding list"
  node place v.kind v.children

/-! ## Statements within statements -/

/-- Whether an operator that is no word for a type begins with a lexeme: one that assigns or one of
two operands. -/
def isValueOperator : Lexeme → Bool
  | .mark m =>
    (BinaryOp.ofAssignment? m).isSome ||
      (match BinaryOp.ofText? m with
      | some .and | some .or | some .nullish | none => false
      | some _ => true)
  | .word w false => w == "in" || w == "instanceof"
  | _ => false

/-- A statement that begins with the word `let`, which is a name where no declaration can stand. -/
def letStatement (rules : Rules) (single : Bool) : Parser Node := do
  let place ← start
  let t ← following
  if isValueOperator t.lexeme then
    let e ← rules (.assignment true)
    semicolon
    node place .expression [e]
  else if t.lexeme == .mark "." || t.lexeme == .mark "(" then
    let e ← plainExpression rules
    node place .expression [e]
  else if (single && t.lexeme != .mark "[") || t.lexeme == .mark ";" then
    let e ← identifier
    semicolon
    node place .expression [e]
  else variableStatement rules place .let false

/-- Whether a declaration cannot be the body of another statement. -/
def needsList (n : Node) : Bool :=
  match n.kind with
  | .variables kind false => kind == .let || kind == .const
  | .classDef .declaration m => !m.isDeclared && !m.isAbstract
  | .function routine .declaration false => routine.async || routine.generator
  | _ => false

/-- A single statement that is the body of another one. -/
def bodyStatement (rules : Rules) : Parser Node := do
  if !(← get).extended then return ← rules .statement
  let s ← if ← isWord "let" then letStatement rules true else rules .statement
  if needsList s then complain
  return s

/-! ## Blocks and conditions -/

def block (rules : Rules) : Parser Node := do
  let place ← start
  demandMark "block" "\x7b"
  let ns ← blockStatements rules
  demandMark "block" "\x7d"
  node place .block ns

/-- An expression in parentheses that belong to some kind of statement. -/
def inParentheses (rules : Rules) (construct : String) : Parser Node := do
  demandMark construct "("
  let e ← plainExpression rules
  demandMark construct ")"
  return e

def ifStatement (rules : Rules) : Parser Node := do
  let place ← start
  advance
  let test ← inParentheses rules "if statement"
  let yes ← bodyStatement rules
  let no ← optional (← eatWord "else") (bodyStatement rules)
  node place .ifThen [test, yes, no]

/-! ## Loops -/

/-- The rest of a loop behind its start, from the semicolon on. -/
def forRest (rules : Rules) (place : Nat) (isAwait : Bool) (init : Node) : Parser Node := do
  demandMark "for statement" ";"
  if isAwait then complain
  let test ← optional (!(← isMark ";") && !(← isMark ")")) (plainExpression rules)
  demandMark "for statement" ";"
  let step ← optional (!(← isMark ")")) (plainExpression rules)
  demandMark "for statement" ")"
  let body ← bodyStatement rules
  node place .forLoop [init, test, step, body]

/-- The rest of a loop over a collection, if one is read here. -/
def forOver (rules : Rules) (place : Nat) (isAwait : Bool) (left : Node) : Parser Node := do
  if ← eatWord "of" then
    let e ← plainAssignment rules
    demandMark "for statement" ")"
    let body ← bodyStatement rules
    node place (.forOf isAwait) [left, e, body]
  else
    expectWord "in"
    if isAwait then complain
    let e ← plainExpression rules
    demandMark "for statement" ")"
    let body ← bodyStatement rules
    node place .forIn [left, e, body]

/-- The kind of the variables that are declared at the start of a loop, if some are. -/
def forVariables : Parser (Option VariableKind) := do
  if ← isWord "var" then return some .var
  if ← isWord "const" then return some .const
  let t ← following
  if (← isWord "let") &&
      (t.lexeme == .mark "[" || t.lexeme == .mark "\x7b" || isIdentifier t.lexeme) then
    return some .let
  let names (l : Lexeme) : Bool := isIdentifier l && l != .word "of" false
  if (← isWord "using") && names t.lexeme then return some .disposed
  if (← isWord "await") && t.lexeme == .word "using" false then return some .awaitDisposed
  return none

def forStatement (rules : Rules) : Parser Node := do
  let place ← start
  advance
  let isAwait ← do
    if ← isWord "await" then
      if !(← context).awaits then complain
      advance; pure true
    else pure false
  demandMark "for statement" "("
  if ← isMark ";" then return ← forRest rules place isAwait .absent
  let inner ← start
  match ← forVariables with
  | some kind =>
    let v ← within (fun c => { c with isIn := false }) (declarators rules inner kind false false)
    if isDisposed kind && (← isWord "in") then complain
    if (← isWord "of") || (← isWord "in") then forOver rules place isAwait v
    else
      for d in v.children do checkValue kind d
      forRest rules place isAwait v
  | none =>
    let startsAsync ← looking do
      if !(← eatWord "async") then return false
      isWord "of"
    let e ← within (fun c => { c with isIn := false }) (expression rules)
    if (← isWord "of") || (← isWord "in") then
      if startsAsync && !isAwait then complain
      let t ← target inner e
      forOver rules place isAwait t
    else forRest rules place isAwait e

def whileStatement (rules : Rules) : Parser Node := do
  let place ← start
  advance
  let test ← inParentheses rules "while statement"
  let body ← bodyStatement rules
  node place .whileLoop [test, body]

def doStatement (rules : Rules) : Parser Node := do
  let place ← start
  advance
  let body ← bodyStatement rules
  demandWord "do while statement" "while"
  let test ← inParentheses rules "do while statement"
  let _ ← eatMark ";"
  node place .doWhile [body, test]

/-! ## Jumps -/

/-- `break` or `continue` with its label. -/
def jump (construct : String) (kind : Option String → Kind) : Parser Node := do
  let place ← start
  advance
  let label ← do
    if isIdentifier (← lexeme) && !(← onNewLine) then pure (← identifier).name? else pure none
  semicolonIn construct
  node place (kind label)

def returnStatement (rules : Rules) : Parser Node := do
  let place ← start
  if !(← context).returns then complainOf (.unexpected "statement")
  advance
  let ends := (← isMark ";") || (← endsLine)
  let e ← optional (!ends) (plainExpression rules)
  semicolonIn "return statement"
  node place .returnValue [e]

def throwStatement (rules : Rules) : Parser Node := do
  let place ← start
  advance
  if ← onNewLine then complain
  let e ← plainExpression rules
  semicolonIn "throw statement"
  node place .throwValue [e]

/-! ## Other statements -/

def switchStatement (rules : Rules) : Parser Node := do
  let place ← start
  advance
  let subject ← inParentheses rules "switch statement"
  let inner ← start
  demandMark "switch statement" "\x7b"
  let cases ← repeated do
    if ← isMark "\x7d" then return none
    let place ← start
    let test ← do
      if ← eatWord "default" then pure .absent
      else if ← eatWord "case" then plainExpression rules
      else missing ["case", "default", "\x7d"] "switch case block"
    demandMark "switch case block" ":"
    let ns ← repeated do
      if (← isMark "\x7d") || (← isWord "case") || (← isWord "default") then return none
      return some (← rules .statement)
    return some (← node place .case (test :: ns))
  expectMark "\x7d"
  let g ← node inner .group cases
  node place .switch [subject, g]

def tryStatement (rules : Rules) : Parser Node := do
  let place ← start
  advance
  let b ← block rules
  let inner ← start
  let handler ← do
    if ← eatWord "catch" then
      let p ← do
        if ← eatMark "(" then
          let place ← start
          let p ← rules .pattern
          let t ← ascription rules
          let p ← if t.isAbsent then pure p else node place (.typed false false) [p, t]
          demandMark "catch in try statement" ")"
          pure p
        else pure .absent
      let b ← block rules
      node inner .handler [p, b]
    else pure .absent
  let final ← optional (← eatWord "finally") (block rules)
  if handler.isAbsent && final.isAbsent then missing ["catch", "finally"] "try statement"
  node place .tryCatch [b, handler, final]

def withStatement (rules : Rules) : Parser Node := do
  let place ← start
  advance
  let e ← inParentheses rules "with statement"
  let body ← bodyStatement rules
  node place .withObject [e, body]

/-- An expression with the end of the statement, or a statement with a label. -/
def expressionStatement (rules : Rules) : Parser Node := do
  let place ← start
  let e ← plainExpression rules
  match e.name?, ← isMark ":" with
  | some label, true =>
    advance
    let body ← bodyStatement rules
    node place (.labeled label) [body]
  | _, _ =>
    semicolon
    node place .expression [e]

/-! ## Declarations of types and modules -/

def typeAlias (rules : Rules) (place : Nat) (isDeclared : Bool) : Parser Node := do
  advance
  let name ← identifier
  let tps ← typeParameters rules
  expectMark "="
  let t ← rules .type
  semicolon
  node place (.typeAlias isDeclared) [name, tps, t]

def interfaceDefinition (rules : Rules) (place : Nat) (isDeclared : Bool) : Parser Node := do
  advance
  let name ← identifier
  let tps ← typeParameters rules
  let inner ← start
  let bases ← do
    if ← eatWord "extends" then
      let first ← typeReference rules
      let more ← repeated do
        if ← eatMark "," then return some (← typeReference rules) else return none
      node inner .group (first :: more)
    else pure .absent
  let inner ← start
  let ms ← typeMembers rules
  let g ← node inner .group ms
  node place (.interfaceDef isDeclared) [name, tps, bases, g]

/-- The key of a member of an enumeration: a name or a text. -/
def enumKey (rules : Rules) : Parser Node := do
  let place ← start
  match ← lexeme with
  | .word _ _ => anyName
  | .string _ _ => stringLiteral
  | .mark "[" =>
    let (k, _) ← key rules
    match k with
    | .mk (.string _ _) _ _ => return k
    | .mk .template _ [.mk (.chunk _ (some s)) _ _] => node place (.string s false)
    | _ => failure
  | _ => failure

def enumMember (rules : Rules) : Parser Node := do
  let place ← start
  let k ← enumKey rules
  let v ← optional (← eatMark "=") (plainAssignment rules)
  node place .enumMember [k, v]

def enumDefinition (rules : Rules) (place : Nat) (isConst isDeclared : Bool) : Parser Node := do
  expectWord "enum"
  let name ← identifier
  let members ← bracketed "\x7b" "\x7d" (enumMember rules)
  node place (.enumDef isConst isDeclared) [name, members]

/-- The statements of a module in braces. -/
def moduleBody (rules : Rules) (ambient : Bool) : Parser Node :=
  within (fun c => { c with
    ambient := c.ambient || ambient, awaits := false, yields := false, returns := false }) do
      let place ← start
      expectMark "\x7b"
      let ns ← statements rules
      expectMark "\x7d"
      node place .block ns

/-- A module from its name on. A name with points stands for modules within each other. -/
def moduleDefinition (rules : Rules) (place : Nat) (keyword : String) (isDeclared : Bool) :
    Parser Node := do
  match ← lexeme with
  | .string _ _ =>
    if keyword != "module" then failure
    let name ← stringLiteral
    if ← isMark "\x7b" then
      let b ← moduleBody rules isDeclared
      node place (.moduleDef keyword isDeclared) [name, b]
    else
      semicolon
      node place (.moduleDef keyword isDeclared) [name, .absent]
  | _ =>
    let first ← identifier
    let more ← repeated do
      if ← eatMark "." then return some (← identifier) else return none
    let b ← do
      if ← isMark "\x7b" then moduleBody rules isDeclared
      else
        semicolon
        pure .absent
    let inner ← more.foldrM
      (fun name body => node name.span.start (.moduleDef keyword false) [name, body]) b
    node place (.moduleDef keyword isDeclared) [first, inner]

/-- A declaration of a type or a module, behind `declare` if that stands in front of it. -/
def typeDeclaration? (rules : Rules) (place : Nat) (ds : Node) (isDeclared : Bool) :
    Parser (Option Node) := do
  let t ← following
  let named := isIdentifier t.lexeme && !t.onNewLine
  match ← lexeme with
  | .word w false =>
    if w == "interface" && named then return some (← interfaceDefinition rules place isDeclared)
    else if w == "type" && named then return some (← typeAlias rules place isDeclared)
    else if w == "enum" then return some (← enumDefinition rules place false isDeclared)
    else if w == "const" && t.lexeme == .word "enum" false then
      advance
      return some (← enumDefinition rules place true isDeclared)
    else if w == "abstract" && t.lexeme == .word "class" false && !t.onNewLine then
      advance
      return some (← classFrom rules place ds .declaration { isAbstract := true, isDeclared })
    else if (w == "namespace" || w == "module") && !t.onNewLine &&
        (named || (match t.lexeme with | .string _ _ => true | _ => false)) then
      advance
      return some (← moduleDefinition rules place w isDeclared)
    else if w == "global" && t.lexeme == .mark "\x7b" then
      let name ← identifier
      let b ← moduleBody rules isDeclared
      return some (← node place (.moduleDef "global" isDeclared) [name, b])
    else return none
  | _ => return none

/-- A declaration that `declare` stands in front of. -/
def declared (rules : Rules) (place : Nat) (ds : Node) : Parser Node :=
  within (fun c => { c with ambient := true }) do
    match ← typeDeclaration? rules place ds true with
    | some d => return d
    | none =>
      match ← lexeme with
      | .word "var" false => variableStatement rules place .var true
      | .word "let" false => variableStatement rules place .let true
      | .word "const" false => variableStatement rules place .const true
      | .word "function" false => function rules place false .declaration true true
      | .word "async" false => advance; function rules place true .declaration true true
      | .word "class" false => classFrom rules place ds .declaration { isDeclared := true }
      | _ => failure

/-- Whether `declare` stands in front of a declaration here. -/
def isDeclare : Parser Bool := do
  let t ← following
  return (← isWord "declare") && !t.onNewLine &&
    (match t.lexeme with
    | .word w false =>
      ["var", "let", "const", "function", "class", "enum", "abstract", "interface", "type",
        "namespace", "module", "global", "async"].contains w
    | _ => false)

/-! ## Declarations -/

/-- The kind of the variables declared here, if some are. -/
def variableKind? : Parser (Option VariableKind) := do
  let t ← following
  match ← lexeme with
  | .word "var" false => return some .var
  | .word "const" false => return some .const
  | .word "let" false =>
    return if t.lexeme == .mark "[" || t.lexeme == .mark "\x7b" || isIdentifier t.lexeme then
      some .let else none
  | .word "using" false =>
    return if isIdentifier t.lexeme && !t.onNewLine && t.lexeme != .word "in" false &&
      t.lexeme != .word "of" false then some .disposed else none
  | .word "await" false =>
    let isUsing ← looking do
      advance
      if !(← isWord "using") then return false
      let t ← following
      return isIdentifier t.lexeme && !t.onNewLine
    return if isUsing then some .awaitDisposed else none
  | _ => return none

/-- A declaration, if one is here. -/
def declaration? (rules : Rules) (place : Nat) (ds : Node) : Parser (Option Node) := do
  if (← get).extended then
    if ← isDeclare then
      advance
      return some (← declared rules place ds)
    match ← typeDeclaration? rules place ds false with
    | some d => return some d
    | none => pure ()
  if ← isWord "class" then
    let t ← following
    if !(← get).extended && !isIdentifier t.lexeme then
      advance
      refuse (.unexpected "expected class identifier")
    return some (← classFrom rules place ds .declaration {})
  if ← isWord "function" then
    return some (← function rules place false .declaration true false)
  let t ← following
  if (← isWord "async") && t.lexeme == .word "function" false && !t.onNewLine then
    advance
    return some (← function rules place true .declaration true false)
  match ← variableKind? with
  | some kind => return some (← variableStatement rules place kind false)
  | none => return none

end PagePreview.Script.Parser
