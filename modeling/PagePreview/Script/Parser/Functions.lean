import PagePreview.Script.Parser.Types

/-!
# Functions and classes

A function goes on behind its name in the same way everywhere. A class has
members with words in front of their keys, each of them at most once; some
keys are reserved for the constructor.
-/

namespace PagePreview.Script.Parser

/-! ## Bodies -/

/-- Statements up to the closing brace, which is left. A statement that is only a text is a
directive, as long as only such statements have come before. -/
def statements (rules : Rules) : Parser (List Node) := do
  let (_, ns) ← iterate (fun ((directives, ns) : Bool × List Node) => do
    if (← isMark "\x7d") || (← lexeme) == .finish then return none
    let here ← get
    let n ← rules .statement
    let raw : Option String := match directives, n with
      | true, .mk .expression _ [.mk (.string _ _) s _] =>
        let length := s.stop - s.start
        let text := here.before.blanks.cursor.rest.take length
        if s.start == here.token.start then some (String.ofList ((text.drop 1).dropLast)) else none
      | _, _ => none
    match raw with
    | some raw => return some (true, Node.mk (.directive raw) n.span [] :: ns)
    | none => return some (false, n :: ns)) (true, [])
  return ns.reverse

/-- The statements of a block up to its closing brace, which is left. None is a directive. -/
def blockStatements (rules : Rules) : Parser (List Node) := repeated do
  if (← isMark "\x7d") || (← lexeme) == .finish then return none
  return some (← rules .statement)

def functionBody (rules : Rules) (routine : Routine) : Parser Node := do
  let place ← start
  expectMark "\x7b"
  let ns ← within (fun c => { c with
      isIn := true, returns := true, yields := routine.generator, awaits := routine.async,
      decorator := false, conditionalType := true }) (statements rules)
  expectMark "\x7d"
  node place .body ns

/-- A function of some kind from its type parameters on: those, the parameters, the result type,
and the body, which may be missing where there are types. -/
def functionParts (rules : Rules) (construct : String) (routine : Routine) :
    Parser (List Node) := do
  let tps ← typeParameters rules
  let ps ← within (fun c => { c with yields := routine.generator, awaits := routine.async })
    (parameters rules construct)
  let r ← optional (← eatMark ":") (resultType rules)
  if ← isMark "\x7b" then
    let b ← functionBody rules routine
    return [tps, ps, r, b]
  else if (← get).extended then
    semicolon
    return [tps, ps, r, .absent]
  else missing ["\x7b"] construct

/-- A function, from the word `function` on. -/
def function (rules : Rules) (place : Nat) (async : Bool) (standing : Standing)
    (named isDeclared : Bool) : Parser Node := do
  expectWord "function"
  let generator ← eatMark "*"
  let routine : Routine := { async, generator }
  let construct :=
    (if async then "async " else "") ++ (if generator then "generator " else "function ") ++
      (match standing with
      | .declaration => "declaration"
      | .expression => "expression")
  let name ← do
    if isIdentifier (← lexeme) then
      match standing with
      | .declaration => identifier
      | .expression =>
        within (fun c => { c with yields := generator, awaits := async }) identifier
    else if !named then pure .absent
    else if ← isMark "(" then refuse (.unexpected construct)
    else identifier
  let parts ← functionParts rules construct routine
  if isDeclared && !(parts.getLastD .absent).isAbsent then complain
  node place (.function routine standing isDeclared) (name :: parts)

/-! ## Classes -/

/-- A word in front of a member, if it is one: whether it has been there before, and the words with
it. -/
def Modifiers.with? (m : Modifiers) (w : String) : Option (Bool × Modifiers) :=
  match accessOf? w with
  | some a => some (m.access.isSome, { m with access := some a })
  | none =>
    if w == "static" then some (m.isStatic, { m with isStatic := true })
    else if w == "abstract" then some (m.isAbstract, { m with isAbstract := true })
    else if w == "override" then some (m.isOverride, { m with isOverride := true })
    else if w == "readonly" then some (m.isReadonly, { m with isReadonly := true })
    else if w == "declare" then some (m.isDeclared, { m with isDeclared := true })
    else if w == "accessor" then some (m.isAccessor, { m with isAccessor := true })
    else none

/-- The words in front of a member. A second `static` is a key. -/
def memberModifiers : Parser Modifiers :=
  iterate (fun m => do
    match ← lexeme with
    | .word w false =>
      let t ← following
      let follows := startsKey t.lexeme || t.lexeme == .mark "*"
      if !follows || (t.onNewLine && w != "static") || (w == "static" && m.isStatic) then
        return none
      match Modifiers.with? m w with
      | some (again, m) =>
        if again then complain
        advance
        return some m
      | none => return none
    | _ => return none) {}

/-- The text of a key that is not computed. -/
def keyText? (computed : Bool) (k : Node) : Option String :=
  if computed then none else k.name?.orElse fun _ => k.string?

/-- Complains about a member whose key is reserved. -/
def checkMember (isField : Bool) (form : MemberForm) (routine : Routine) (computed : Bool)
    (k : Node) (modifiers : Modifiers) : Parser Unit := do
  if k.kind == .privateName "constructor" then complain
  match k.kind with
  | .privateName _ => if modifiers.access.isSome then complain
  | _ => pure ()
  match keyText? computed k with
  | some "constructor" =>
    let special := form == .getter || form == .setter || routine != {}
    if isField || (!modifiers.isStatic && special) then complain
  | some "prototype" => if modifiers.isStatic && !(← context).ambient then complain
  | _ => pure ()

/-- Complains about a constructor with type parameters or a type of `this`. -/
def checkConstructor (typeParameters parameters : Node) : Parser Unit := do
  if !typeParameters.isAbsent then complain
  if parameters.children.any fun p => isSelf (p.child 1) then complain

/-- A member of a class from its key on. -/
def memberFrom (rules : Rules) (place : Nat) (ds : Node) (form : MemberForm) (routine : Routine)
    (modifiers : Modifiers) : Parser Node := do
  let (k, computed) ← memberKey rules
  let isOptional ← eatMark "?"
  if isOptional && modifiers.isAccessor then complain
  let isDefinite ← do
    if !isOptional && (← isMark "!") then advance; pure true else pure false
  let modifiers := { modifiers with isOptional, isDefinite }
  if form != .value || routine != {} || (← isMark "(") || (← isMark "<") then
    let inner ← start
    let parts ← functionParts rules "class method definition" routine
    let f ← node inner (.function routine .expression false) (.absent :: parts)
    let form : MemberForm := if form == .value then .method else form
    let isConstructor :=
      form == .method && !modifiers.isStatic && keyText? computed k == some "constructor"
    if (← get).extended then
      checkMember false form routine computed k modifiers
      if isConstructor then checkConstructor (f.child 1) (f.child 2)
    node place (.method form isConstructor computed modifiers) [ds, k, f]
  else
    let t ← ascription rules
    let v ← optional (← eatMark "=")
      (within (fun c => { c with yields := false, awaits := false }) (plainAssignment rules))
    semicolon
    if (← get).extended then checkMember true form routine computed k modifiers
    node place (.field computed modifiers) [ds, k, t, v]

def classMember (rules : Rules) : Parser Node := do
  let place ← start
  let ds ← decorators rules
  if (← isWord "static") && (← followedByMark "\x7b") then
    advance
    advance
    let ns ← within (fun c => { c with
      isIn := true, yields := false, awaits := true, returns := false }) (blockStatements rules)
    expectMark "\x7d"
    return ← node place .staticBlock ns
  let modifiers ← memberModifiers
  if (← isMark "[") && (← opensIndexSignature) then
    if modifiers != { isStatic := modifiers.isStatic, isReadonly := modifiers.isReadonly } then
      complain
    return ← indexSignature rules place modifiers
  let async ← do
    let t ← following
    if (← isWord "async") && !t.onNewLine && (startsKey t.lexeme || t.lexeme == .mark "*") then
      advance; pure true
    else pure false
  let generator ← eatMark "*"
  let form : MemberForm ← do
    if async || generator then pure .value
    else if (← isWord "get") && (← modifiesKey false) then advance; pure .getter
    else if (← isWord "set") && (← modifiesKey false) then advance; pure .setter
    else pure .value
  memberFrom rules place ds form { async, generator } modifiers

/-- The members of a class in braces. -/
def classBody (rules : Rules) : Parser Node := do
  let place ← start
  expectMark "\x7b"
  let ms ← within (fun c => { c with decorator := false }) <| repeated do
    let _ ← iterate (fun _ => do if ← eatMark ";" then return some () else return none) ()
    if ← isMark "\x7d" then return none else return some (← classMember rules)
  expectMark "\x7d"
  node place .group ms

/-- A class, from the word `class` on. -/
def classFrom (rules : Rules) (place : Nat) (ds : Node) (standing : Standing)
    (modifiers : Modifiers) : Parser Node := do
  expectWord "class"
  let name ← do
    if isIdentifier (← lexeme) && !(← isWord "implements") then identifier else pure .absent
  let tps ← typeParameters rules
  let (base, arguments) ← do
    if ← eatWord "extends" then
      let b ← rules .leftHand
      pure (b, ← typeArguments rules)
    else pure (.absent, .absent)
  let place' ← start
  let interfaces ← do
    if ← eatWord "implements" then
      let first ← typeReference rules
      let more ← repeated do
        if ← eatMark "," then return some (← typeReference rules) else return none
      node place' .group (first :: more)
    else pure .absent
  let body ← within (fun c => { c with ambient := c.ambient || modifiers.isDeclared })
    (classBody rules)
  node place (.classDef standing modifiers) [ds, name, tps, base, arguments, interfaces, body]

end PagePreview.Script.Parser
