import PagePreview.Script.Parser.Parameters

/-!
# Types

Types are read so that they can be printed again or taken out. A function
type is told from a type in parentheses by what follows the parenthesis; it
stands where a whole type does, and not between signs. A type may have a
question or exclamation mark in front of it or behind it.
-/

namespace PagePreview.Script.Parser

/-! ## Names and arguments -/

/-- Goes from `<<` to `<`, which is what opens type arguments. -/
def openAngle : Parser Bool := do
  match ← lexeme with
  | .mark m =>
    if m == "<" then return true
    else if m == "<<" then reread Lexer.readLess; return true
    else return false
  | _ => return false

/-- A name with points in it. -/
def entityName : Parser Node := do
  let place ← start
  let first ← do
    if ← isWord "this" then advance; node place .self else anyName
  iterate (fun n => do
    if (← isMark ".") && isAnyName (← following).lexeme then
      advance
      let name ← anyName
      return some (← node place .qualified [n, name])
    else return none) first

/-- Type arguments, if some are here. -/
def typeArguments (rules : Rules) : Parser Node := do
  if !((← get).extended && (← openAngle)) then return .absent
  let place ← start
  advance
  let types ← separated ">" (rules .type)
  expectMark ">"
  if types.isEmpty then complain
  node place .typeArguments types

def typeParameter (rules : Rules) : Parser Node := do
  let place ← start
  let isConst ← eatWord "const"
  let isIn ← do
    if (← isWord "in") then advance; pure true else pure false
  let isOut ← do
    if (← isWord "out") && isIdentifier (← following).lexeme then advance; pure true else pure false
  match (← identifier).name? with
  | none => failure
  | some name =>
    let bound ← optional (← eatWord "extends") (rules .type)
    let default ← optional (← eatMark "=") (rules .type)
    node place (.typeParameter name isConst isIn isOut) [bound, default]

/-- Type parameters, if some are here. -/
def typeParameters (rules : Rules) : Parser Node := do
  if !((← get).extended && (← isMark "<")) then return .absent
  let place ← start
  advance
  let ps ← separated ">" (typeParameter rules)
  expectMark ">"
  if ps.isEmpty then complain
  node place .typeParameters ps

/-! ## Function types -/

/-- A result type, which may say what holds of a parameter. -/
def resultType (rules : Rules) : Parser Node := do
  let place ← start
  if isAnyName (← lexeme) then
    let t ← following
    if t.lexeme == .word "is" false && !t.onNewLine then
      let name ← do
        if ← isWord "this" then advance; node place .self else anyName
      advance
      let t ← rules .type
      return ← node place (.typePredicate false) [name, t]
  rules .type

/-- What is said to hold of a parameter if a function returns. -/
def assertion (rules : Rules) : Parser Node := do
  let place ← start
  advance
  let inner ← start
  let name ← do
    if ← isWord "this" then advance; node inner .self else anyName
  let t ← optional (← eatWord "is") (rules .type)
  node place (.typePredicate true) [name, t]

/-- Whether the word `asserts` here is followed by what it speaks of. -/
def opensAssertion : Parser Bool := do
  let t ← following
  return (← isWord "asserts") && !t.onNewLine &&
    (isIdentifier t.lexeme || t.lexeme == .word "this" false)

def functionType (rules : Rules) : Parser Node := do
  let place ← start
  let isAbstract ← eatWord "abstract"
  let constructs ← eatWord "new"
  let tps ← typeParameters rules
  let ps ← parameters rules "function type"
  expectMark "=>"
  let r ← resultType rules
  node place (if constructs then .constructorType isAbstract else .functionType) [tps, ps, r]

/-! ## Members of object types -/

/-- Ends a member: with a semicolon, a comma, or where a line ends. -/
def memberEnd : Parser Unit := do
  if !(← eatMark ",") then semicolon

/-- A call signature without what is in front of its parameters. -/
def signature (rules : Rules) : Parser (List Node) := do
  let tps ← typeParameters rules
  let ps ← parameters rules "signature"
  let r ← optional (← eatMark ":") (resultType rules)
  return [tps, ps, r]

/-- The signature of a getter or setter. It has no type parameters, and that of a setter names no
result. -/
def accessorSignature (rules : Rules) (form : MemberForm) : Parser (List Node) := do
  let ps ← parameters rules "signature"
  let r ← optional (← eatMark ":") (resultType rules)
  memberEnd
  if form == .setter && !r.isAbsent then complain
  return [.absent, ps, r]

/-- Whether an index signature begins with the bracket here. -/
def opensIndexSignature : Parser Bool := looking do
  advance
  if !isIdentifier (← lexeme) then return false
  advance
  isMark ":"

/-- An index signature, from its bracket on. -/
def indexSignature (rules : Rules) (place : Nat) (modifiers : Modifiers) : Parser Node := do
  expectMark "["
  match (← identifier).name? with
  | none => failure
  | some name =>
    expectMark ":"
    let k ← rules .type
    expectMark "]"
    let v ← ascription rules
    if v.isAbsent then failure
    memberEnd
    node place (.indexSignature name modifiers) [k, v]

/-- Whether the word here is a modifier of a member that follows it. -/
def modifiesKey (sameLine : Bool) : Parser Bool := do
  let t ← following
  return startsKey t.lexeme && !(sameLine && t.onNewLine)

def typeMember (rules : Rules) : Parser Node := do
  let place ← start
  if (← isMark "(") || (← isMark "<") then
    let parts ← signature rules
    memberEnd
    return ← node place .callSignature parts
  if ← isWord "new" then
    let t ← following
    if t.lexeme == .mark "(" || t.lexeme == .mark "<" then
      advance
      let parts ← signature rules
      memberEnd
      return ← node place .constructSignature parts
  let isReadonly ← do
    if (← isWord "readonly") && (← modifiesKey true) then advance; pure true else pure false
  let form : MemberForm ← do
    if (← isWord "get") && (← modifiesKey false) then advance; pure .getter
    else if (← isWord "set") && (← modifiesKey false) then advance; pure .setter
    else pure .value
  if (← isMark "[") && (← opensIndexSignature) then
    return ← indexSignature rules place { isReadonly }
  let (k, computed) ← key rules
  if form != .value then
    let parts ← accessorSignature rules form
    return ← node place (.methodSignature form computed false) (k :: parts)
  let isOptional ← eatMark "?"
  if (← isMark "(") || (← isMark "<") then
    let parts ← signature rules
    memberEnd
    node place (.methodSignature .method computed isOptional) (k :: parts)
  else
    let t ← ascription rules
    memberEnd
    node place (.propertySignature computed { isReadonly, isOptional }) [k, t]

/-- The members of an object type in braces. -/
def typeMembers (rules : Rules) : Parser (List Node) := do
  expectMark "\x7b"
  let ms ← repeated do
    if ← isMark "\x7d" then return none else return some (← typeMember rules)
  expectMark "\x7d"
  return ms

/-! ## Mapped types -/

/-- Whether a mapped type begins with the brace here. -/
def opensMappedType : Parser Bool := looking do
  advance
  if (← isMark "+") || (← isMark "-") then
    advance
    return ← isWord "readonly"
  let _ ← eatWord "readonly"
  if !(← eatMark "[") then return false
  if !isIdentifier (← lexeme) then return false
  advance
  isWord "in"

/-- A mark of a mapped type that a word or a question mark makes. -/
def mappedMark (atWord : Parser Bool) : Parser MappedMark := do
  let signed (m : MappedMark) : Parser MappedMark := do
    advance
    if ← atWord then advance; return m else failure
  if ← isMark "+" then signed .plus
  else if ← isMark "-" then signed .minus
  else if ← atWord then advance; return .bare
  else return .none

def mappedType (rules : Rules) : Parser Node := do
  let place ← start
  expectMark "\x7b"
  let readonly ← mappedMark (isWord "readonly")
  expectMark "["
  match (← identifier).name? with
  | none => failure
  | some name =>
    expectWord "in"
    let domain ← rules .type
    let newKey ← optional (← eatWord "as") (rules .type)
    expectMark "]"
    let optional ← mappedMark (isMark "?")
    let t ← ascription rules
    let _ ← eatMark ";"
    expectMark "\x7d"
    node place (.mappedType name readonly optional) [domain, newKey, t]

/-! ## Simple types -/

/-- The words that are types by themselves. -/
def typeWords : List String :=
  ["any", "unknown", "string", "number", "bigint", "symbol", "boolean", "undefined", "never",
    "object", "intrinsic"]

def tupleMember (rules : Rules) : Parser Node := do
  let place ← start
  let isRest ← eatMark "..."
  let inner ← start
  let named ← looking do
    if !isAnyName (← lexeme) then return false
    advance
    let _ ← eatMark "?"
    isMark ":"
  let t ← do
    if named then
      match (← anyName).name? with
      | none => failure
      | some name =>
        let optional ← eatMark "?"
        expectMark ":"
        let t ← rules .type
        node inner (.namedMember name optional) [t]
    else rules .type
  if isRest then node place .restType [t] else return t

/-- A template, of expressions or of types. -/
def templateOf (kind : Kind) (part : Parser Node) : Parser Node := do
  let place ← start
  let chunk : Parser (Node × Bool) := do
    let place ← start
    match ← lexeme with
    | .chunk raw cooked last =>
      advance
      return (← node place (.chunk raw cooked), last)
    | _ => failure
  reread Lexer.readChunk
  let (first, last) ← chunk
  let (_, parts) ← iterate (fun ((last, parts) : Bool × List Node) => do
    if last then return none
    let e ← part
    if !(← isMark "\x7d") then failure
    reread Lexer.readChunk
    let (c, last) ← chunk
    return some (last, c :: e :: parts)) (last, [first])
  node place kind parts.reverse

/-- How something is imported: an object. -/
def importOptions (rules : Rules) : Parser Node := do
  let o ← rules (.assignment true)
  match o.kind with
  | .object => return o
  | _ => failure

def importType (rules : Rules) : Parser Node := do
  let place ← start
  expectWord "import"
  expectMark "("
  let argument ← rules .type
  let options ← optional (← eatMark ",") (importOptions rules)
  expectMark ")"
  let qualifier ← optional (← eatMark ".") entityName
  let arguments ← do
    if ← onNewLine then pure .absent else typeArguments rules
  node place .importType [argument, options, qualifier, arguments]

def typeReference (rules : Rules) : Parser Node := do
  let place ← start
  let name ← entityName
  let arguments ← do
    if ← onNewLine then pure .absent else typeArguments rules
  node place .typeReference [name, arguments]

def simpleType (rules : Rules) : Parser Node := do
  let place ← start
  match ← lexeme with
  | .word w _ =>
    if typeWords.contains w && !(← followedByMark ".") then
      advance
      node place (.typeWord w)
    else if w == "void" then advance; node place (.typeWord w)
    else if w == "null" then
      advance
      node place .literalType [← node place .null]
    else if w == "true" || w == "false" then
      advance
      node place .literalType [← node place (.boolean (w == "true"))]
    else if w == "this" then
      advance
      if (← isWord "is") && !(← onNewLine) then
        let self ← node place .self
        advance
        let t ← rules .type
        node place (.typePredicate false) [self, t]
      else node place (.typeWord w)
    else if ← opensAssertion then assertion rules
    else if w == "typeof" then
      advance
      let name ← do
        if ← isWord "import" then importType rules else entityName
      let arguments ← do
        if ← onNewLine then pure .absent else typeArguments rules
      node place .typeQuery [name, arguments]
    else if w == "import" then importType rules
    else typeReference rules
  | .string s lossy => advance; node place .literalType [← node place (.string s lossy)]
  | .number t => advance; node place .literalType [← node place (.number t)]
  | .bigint t => advance; node place .literalType [← node place (.bigint t)]
  | .mark "-" =>
    advance
    let inner ← start
    let n ← match ← lexeme with
      | .number t => advance; node inner (.number t)
      | .bigint t => advance; node inner (.bigint t)
      | _ => failure
    node place .literalType [← node place (.unary .minus) [n]]
  | .mark "`" => do
    let t ← templateOf .templateType (rules .type)
    match t.children with
    | [c] => node place .literalType [.mk .template t.span [c]]
    | _ => return t
  | .mark "\x7b" =>
    if ← opensMappedType then mappedType rules
    else
      let ms ← typeMembers rules
      node place .typeLiteral ms
  | .mark "[" =>
    advance
    let ms ← separated "]" (tupleMember rules)
    expectMark "]"
    node place .tuple ms
  | .mark "(" =>
    advance
    let t ← rules .type
    expectMark ")"
    node place .parenType [t]
  | _ => failure

/-- Whether the parenthesis here opens the parameters of a function type. -/
def opensFunctionType (rules : Rules) : Parser Bool := looking do
  advance
  if (← isMark ")") || (← isMark "...") then return true
  let _ ← parameterModifiers
  let skipped ← do
    if (← isWord "this") || isIdentifier (← lexeme) then advance; pure true
    else if (← isMark "[") || (← isMark "\x7b") then
      let _ ← rules .pattern
      pure true
    else pure false
  if !skipped then return false
  if ← isAnyMark [":", ",", "?", "="] then return true
  if ← eatMark ")" then isMark "=>" else return false

/-- Whether a type can begin with a lexeme that does not need a look behind it. -/
def opensType : Lexeme → Bool
  | .word w _ =>
    !reservedWords.contains w ||
      ["void", "null", "this", "typeof", "new", "true", "false", "import", "function"].contains w
  | .mark m =>
    ["\x7b", "[", "<", "<<", "|", "&", "*", "?", "!", "...", "`"].contains m
  | .string _ _ | .number _ | .bigint _ => true
  | _ => false

/-- Whether a type begins here. -/
def startsType : Parser Bool := do
  let next := (← following).lexeme
  let isNumber : Bool := match next with
    | .number _ | .bigint _ => true
    | _ => false
  match ← lexeme with
  | .mark "-" => return isNumber
  | .mark "(" =>
    return next == .mark ")" || next == .mark "@" || next == .mark "(" || next == .mark "-" ||
      opensType next || (match next with | .privateName _ => true | _ => false)
  | l => return opensType l

/-- A type with a mark in front of it. A lone question mark stands for an unknown type. -/
def typeBehindMark (rules : Rules) (plain : Parser Node) : Parser Node := do
  let place ← start
  if ← eatMark "!" then
    let t ← plain
    node place (.markedType "!" false) [t]
  else
    advance
    if ← isAnyMark [",", "\x7d", ")", ">", "=", "|"] then node place (.typeWord "unknown")
    else
      let t ← rules .type
      node place (.markedType "?" false) [t]

/-- A simple type with the brackets and marks behind it. A question mark in front of a type is the
one of a condition. -/
def bracketType (rules : Rules) : Parser Node := do
  let place ← start
  let plain : Parser Node := simpleType rules
  let t ← if (← isMark "?") || (← isMark "!") then typeBehindMark rules plain else plain
  iterate (fun t => do
    if ← onNewLine then return none
    match ← lexeme with
    | .mark "[" =>
      advance
      if ← startsType then
        let index ← rules .type
        expectMark "]"
        return some (← node place .indexedAccess [t, index])
      else
        expectMark "]"
        return some (← node place .arrayType [t])
    | .mark "!" =>
      advance
      return some (← node place (.markedType "!" true) [t])
    | .mark "?" =>
      if ← looking (do advance; startsType) then return none
      advance
      return some (← node place (.markedType "?" true) [t])
    | _ => return none) t

/-- The bound of an inferred type: it is only one if no conditional type begins with it. -/
def inferBound (rules : Rules) : Parser Node := do
  let bound ← attempt do
    expectWord "extends"
    let t ← within (fun c => { c with conditionalType := false }) (rules .type)
    if (← context).conditionalType && (← isMark "?") then failure
    return t
  return bound.getD .absent

def typeOperand (rules : Rules) : Parser Node := do
  let place ← start
  match ← lexeme with
  | .word w false =>
    if w == "keyof" || w == "unique" || w == "readonly" then
      advance
      let t ← rules .typeOperand
      node place (.typeOperator w) [t]
    else if w == "infer" then
      advance
      match (← identifier).name? with
      | none => failure
      | some name =>
        let bound ← inferBound rules
        node place (.inferType name) [bound]
    else within (fun c => { c with conditionalType := true }) (bracketType rules)
  | _ => within (fun c => { c with conditionalType := true }) (bracketType rules)

/-- Types with a mark between them. -/
def typesJoined (mark : String) (kind : Kind) (part : Parser Node) : Parser Node := do
  let place ← start
  let led ← eatMark mark
  let first ← part
  let more ← repeated do
    if ← eatMark mark then return some (← part) else return none
  if led || !more.isEmpty then node place kind (first :: more) else return first

/-- Whether a function type begins here. -/
def startsFunctionType (rules : Rules) : Parser Bool := do
  if ← isMark "<" then return true
  if ← isMark "(" then return ← opensFunctionType rules
  if ← isWord "new" then return true
  return (← isWord "abstract") && (← following).lexeme == .word "new" false

def unionType (rules : Rules) : Parser Node :=
  typesJoined "|" .union (typesJoined "&" .intersection (rules .typeOperand))

def type (rules : Rules) : Parser Node := do
  let place ← start
  if ← startsFunctionType rules then return ← functionType rules
  let t ← unionType rules
  if (← context).conditionalType && (← isWord "extends") && !(← onNewLine) then
    advance
    let bound ← within (fun c => { c with conditionalType := false }) (rules .type)
    expectMark "?"
    let yes ← within (fun c => { c with conditionalType := true }) (rules .type)
    expectMark ":"
    let no ← within (fun c => { c with conditionalType := true }) (rules .type)
    node place .conditionalType [t, bound, yes, no]
  else return t

end PagePreview.Script.Parser
