import PagePreview.Script.Parser.Functions

/-!
# Expressions

Operators are read by their levels. A parenthesis may turn out to have opened
the parameters of a function in arrow form; `arrowLook` tells from a few
tokens whether it has, and only where these do not decide it both readings
are tried.

The target of an assignment is read as an expression and turned into a
target afterwards.
-/

namespace PagePreview.Script.Parser

/-! ## Targets -/

/-- Whether nothing follows an expression that is spread out, not even a comma. -/
def endsItsList (spread e : Node) (rest : List Node) : Bool :=
  rest.isEmpty && spread.span.stop == e.span.stop

/-- Whether an expression is a name or a member. -/
def isPlainTarget (e : Node) : Bool :=
  match e.kind with
  | .name _ | .member false | .index false => true
  | _ => false

mutual

/-- The target that an expression stands for, and whether it can stand for one. -/
def toTarget : Node → Node × Bool
  | .mk (.name s) sp cs => (.mk (.name s) sp cs, true)
  | .mk (.member o) sp cs => (.mk (.member o) sp cs, !o)
  | .mk (.index o) sp cs => (.mk (.index o) sp cs, !o)
  | .mk .nonNull sp [e] => (.mk .nonNull sp [e], isPlainTarget e.plain)
  | .mk .asType sp [e, t] => (.mk .asType sp [e, t], isPlainTarget e.plain)
  | .mk .satisfiesType sp [e, t] => (.mk .satisfiesType sp [e, t], isPlainTarget e.plain)
  | .mk .paren sp [.mk .object sp' cs] => (.mk .paren sp [.mk .object sp' cs], false)
  | .mk .paren sp [.mk .array sp' cs] => (.mk .paren sp [.mk .array sp' cs], false)
  | .mk .paren sp [e] => let (t, ok) := toTarget e; (.mk .paren sp [t], ok)
  | .mk .array sp cs => let (ts, ok) := toTargets cs; (.mk .arrayTarget sp ts, ok)
  | .mk .object sp cs => let (ts, ok) := toTargets cs; (.mk .objectTarget sp ts, ok)
  | n => (n, false)

/-- The target that a part of a collection stands for; it may have a default. -/
def toPart : Node → Node × Bool
  | .mk .absent sp cs => (.mk .absent sp cs, true)
  | .mk (.assign none) sp [t, e] => (.mk .withDefault sp [t, e], true)
  | .mk .withDefault sp cs => (.mk .withDefault sp cs, true)
  | .mk (.property .value computed shorthand) sp [k, v] =>
    let (t, ok) := toPart v
    (.mk (.propertyPattern computed shorthand) sp [k, t], ok)
  | n => toTarget n

/-- The targets that the parts of a collection stand for. What is spread out has to be the last
one. -/
def toTargets : List Node → List Node × Bool
  | [] => ([], true)
  | .mk .spread sp [e] :: ns =>
    let (t, ok) := toTarget e
    let (ts, oks) := toTargets ns
    (.mk .rest sp [t] :: ts, ok && oks && endsItsList (.mk .spread sp [e]) e ns)
  | n :: ns =>
    let (t, ok) := toPart n
    let (ts, oks) := toTargets ns
    (t :: ts, ok && oks)

end

def noTarget : Defect := .illegal "Invalid left-hand side in assignment"

/-- The target that an expression stands for; complains if there is none. -/
def target (place : Nat) (e : Node) : Parser Node := do
  let (t, ok) := toTarget e
  if !ok then complainAt place noTarget
  return t

/-- The target of an operator that also reads it. -/
def simpleTarget (place : Nat) (e : Node) : Parser Node := do
  match e.bare.kind with
  | .array | .object => complainAt place noTarget; return e
  | _ => target place e

/-! ## Arguments -/

/-- An expression that may be spread out. -/
def spreadable (rules : Rules) : Parser Node := do
  let place ← start
  if ← eatMark "..." then
    let e ← plainAssignment rules
    node place .spread [e]
  else plainAssignment rules

def arguments (rules : Rules) : Parser Node :=
  within (fun c => { c with decorator := false })
    (bracketedIn "argument list" [",", "\x7d"] "(" ")" (spreadable rules))

/-- Whether a lexeme can begin an expression. -/
def startsExpression : Lexeme → Bool
  | .word w _ =>
    !reservedWords.contains w ||
      ["class", "delete", "false", "function", "import", "new", "null", "super", "this", "true",
        "typeof", "void"].contains w
  | .mark m =>
    ["+", "-", "~", "!", "(", "[", "\x7b", "++", "--", "<", "<<", "/", "/=", "`", "@"].contains m
  | .privateName _ | .number _ | .bigint _ | .string _ _ => true
  | _ => false

def isBinaryOperator : Lexeme → Bool
  | .word w false => w == "in" || w == "instanceof" || w == "as" || w == "satisfies"
  | .mark m => (BinaryOp.ofText? m).isSome
  | _ => false

/-- Type arguments in an expression, if what follows them shows that they are some. -/
def argumentsOfExpression (rules : Rules) : Parser (Option Node) := do
  if !(← get).extended then return none
  attempt do
    let args ← typeArguments rules
    if args.isAbsent then failure
    let s ← get
    let follows := match s.token.lexeme with
      | .mark m =>
        if m == "(" || m == "`" then true
        else if m == "<" || m == ">" || m == "+" || m == "-" then false
        else s.token.onNewLine || isBinaryOperator (.mark m) || !startsExpression (.mark m)
      | l => s.token.onNewLine || isBinaryOperator l || !startsExpression l
    if follows then return args else failure

/-! ## Simple expressions -/

/-- A property of an object. -/
def property (rules : Rules) : Parser Node := do
  let place ← start
  if ← eatMark "..." then
    let e ← plainAssignment rules
    return ← node place .spread [e]
  let async ← do
    let t ← following
    if (← isWord "async") && !t.onNewLine && (startsKey t.lexeme || t.lexeme == .mark "*") then
      advance; pure true
    else pure false
  let generator ← eatMark "*"
  let routine : Routine := { async, generator }
  let form : MemberForm ← do
    if async || generator then pure .value
    else if (← isWord "get") && (← modifiesKey false) then advance; pure .getter
    else if (← isWord "set") && (← modifiesKey false) then advance; pure .setter
    else pure .value
  let nameHere ← isReference
  let (k, computed) ← key rules
  if form != .value || routine != {} || (← isMark "(") || (← isMark "<") then
    let inner ← start
    let parts ← functionParts rules "object method definition" routine
    let f ← node inner (.function routine .expression false) (.absent :: parts)
    let form : MemberForm := if form == .value then .method else form
    node place (.property form computed false) [k, f]
  else if ← eatMark ":" then
    let v ← plainAssignment rules
    node place (.property .value computed false) [k, v]
  else if nameHere && !computed then
    let v ← withDefault rules place k
    node place (.property .value false true) [k, v]
  else missing ["("] "object method definition"

/-- The parts of a collection. One that is spread out in front of a closing comma takes that comma,
because then it can be no rest. -/
def closedBy (comma : Bool) (stop : Nat) : List Node → List Node
  | [] => []
  | [.mk .spread sp cs] => [.mk .spread (if comma then { sp with stop } else sp) cs]
  | n :: ns => n :: closedBy comma stop ns

def objectLiteral (rules : Rules) : Parser Node := do
  let place ← start
  demandMark "object literal" "\x7b"
  let (ps, comma) ← within (fun c => { c with decorator := false })
    (separatedBy "\x7d" (property rules))
  let ps := closedBy comma (← get).lastStop ps
  if !(← eatMark "\x7d") then missing [",", "\x7d"] "object literal"
  node place .object ps

def arrayLiteral (rules : Rules) : Parser Node := do
  let place ← start
  expectMark "["
  let (es, comma) ← within (fun c => { c with decorator := false }) <| separatedBy "]" do
    if ← isMark "," then return .absent else spreadable rules
  let es := closedBy comma (← get).lastStop es
  if !(← eatMark "]") then refuse (.unexpected "expected comma or end of array")
  node place .array es

/-- Expressions with commas between them. -/
def expression (rules : Rules) : Parser Node := do
  let place ← start
  let first ← rules (.assignment true)
  let more ← repeated do
    if !(← isMark ",") then return none
    if ← followedByMark ")" then
      refuse (.unexpected "trailing comma in parenthesized expression")
    advance
    return some (← rules (.assignment true))
  if more.isEmpty then return first else node place .sequence (first :: more)

def plainExpression (rules : Rules) : Parser Node :=
  within (fun c => { c with isIn := true }) (expression rules)

def parenthesized (rules : Rules) : Parser Node := do
  let place ← start
  expectMark "("
  if ← isMark ")" then
    complainAt place
      (.unexpected "parenthesized expression with non-expression binding patterns")
  let e ← within (fun c => { c with isIn := true, decorator := false }) (expression rules)
  if !(← eatMark ")") then
    missing [")", ","] "CoverParenthesizedExpressionAndArrowParameterList"
  node place .paren [e]

def template (rules : Rules) (isTagged : Bool) : Parser Node := do
  let t ← within (fun c => { c with decorator := false })
    (templateOf .template (plainExpression rules))
  let invalid := t.children.any fun c =>
    match c.kind with
    | .chunk _ none => true
    | _ => false
  if invalid && !isTagged then complain
  return t

/-- `import(…)`, `import.meta` and the calls with a phase. -/
def importExpression (rules : Rules) : Parser Node := do
  let place ← start
  expectWord "import"
  let call (phase : Option String) : Parser Node := do
    expectMark "("
    if ← isMark ")" then failure
    let e ← plainAssignment rules
    let options ← do
      if (← eatMark ",") && !(← isMark ")") then plainAssignment rules else pure .absent
    let _ ← eatMark ","
    expectMark ")"
    node place (.importCall phase) [e, options]
  if ← eatMark "." then
    if ← eatWord "meta" then node place (.metaProperty "import" "meta")
    else if ← eatWord "source" then call (some "source")
    else if ← eatWord "defer" then call (some "defer")
    else failure
  else within (fun c => { c with decorator := false }) (call none)

/-! ## Members and calls -/

/-- The name behind a point. -/
def memberName : Parser Node := do
  let place ← start
  match ← lexeme with
  | .privateName w => advance; node place (.privateName w)
  | _ => anyName

/-- An expression in brackets. -/
def indexIn (rules : Rules) : Parser Node := do
  expectMark "["
  let e ← within (fun c => { c with isIn := true, decorator := false }) (expression rules)
  demandMark "member expression" "]"
  return e

/-- A template behind an expression. Type arguments that were read with the expression belong to
it. -/
def taggedTemplate (rules : Rules) (place : Nat) (e : Node) : Parser Node := do
  let t ← template rules true
  match e with
  | .mk .instantiation _ [f, args] => node place .tagged [f, args, t]
  | _ => node place .tagged [e, .absent, t]

/-- What follows an expression without calls, and whether a `?.` was among it. -/
def memberRest (rules : Rules) (place : Nat) (chains : Bool) (e : Node × Bool) :
    Parser (Node × Bool) :=
  iterate (fun (e, chained) => do
    match ← lexeme with
    | .mark "." =>
      advance
      let name ← memberName
      return some (← node place (.member false) [e, name], chained)
    | .mark "?." =>
      if !chains then return none
      let t ← following
      match t.lexeme with
      | .mark "[" =>
        advance
        let i ← indexIn rules
        return some (← node place (.index true) [e, i], true)
      | .word _ _ | .privateName _ =>
        advance
        let name ← memberName
        return some (← node place (.member true) [e, name], true)
      | _ => return none
    | .mark "[" =>
      if (← context).decorator then return none
      let i ← indexIn rules
      return some (← node place (.index false) [e, i], chained)
    | .mark "`" =>
      if chained then complain
      return some (← taggedTemplate rules place e, chained)
    | .mark "!" =>
      let s ← get
      if s.token.onNewLine || !s.extended then return none
      advance
      return some (← node place .nonNull [e], chained)
    | .mark "<" | .mark "<<" =>
      match ← argumentsOfExpression rules with
      | some args => return some (← node place .instantiation [e, args], chained)
      | none => return none
    | _ => return none) e

/-- What follows an expression, calls included. -/
def callRest (rules : Rules) (place : Nat) (e : Node × Bool) : Parser (Node × Bool) := do
  let e ← memberRest rules place true e
  iterate (fun (e, chained) => do
    let optional ← eatMark "?."
    let args ← if optional then argumentsOfExpression rules else pure none
    if ← isMark "(" then
      let (callee, targs) := match args, e with
        | some args, e => (e, args)
        | none, .mk .instantiation _ [f, args] => if optional then (e, .absent) else (f, args)
        | none, e => (e, .absent)
      let as ← arguments rules
      let c ← node place (.call optional false) [callee, targs, as]
      return some (← memberRest rules place true (c, chained || optional))
    else if optional then failure
    else return none) e

/-! ## Functions and classes as expressions -/

def functionExpression (rules : Rules) (place : Nat) (async : Bool) : Parser Node :=
  function rules place async .expression false false

def newExpression (rules : Rules) : Parser Node := do
  let place ← start
  expectWord "new"
  if ← eatMark "." then
    expectWord "target"
    return ← node place (.metaProperty "new" "target")
  let (callee, args) ← do
    let e ← rules .callee
    match e with
    | .mk .instantiation _ [f, args] => pure (f, args)
    | e => pure (e, .absent)
  match callee.kind with
  | .importCall _ => complain
  | _ => pure ()
  if ← isMark "?." then complain
  let as ← do
    if ← isMark "(" then arguments rules else pure (.group [])
  node place (.construct false) [callee, args, as]

/-- An expression that is not taken apart by operators or points. -/
def primary (rules : Rules) : Parser Node := do
  let place ← start
  match ← lexeme with
  | .word w escaped =>
    if escaped || !reservedWords.contains w then
      let t ← following
      if w == "async" && !escaped && t.lexeme == .word "function" false && !t.onNewLine then
        advance
        functionExpression rules place true
      else if !(← isReference) then failure
      else identifier
    else if w == "this" then advance; node place .self
    else if w == "null" then advance; node place .null
    else if w == "true" || w == "false" then advance; node place (.boolean (w == "true"))
    else if w == "function" then functionExpression rules place false
    else if w == "class" then classFrom rules place .absent .expression {}
    else if w == "new" then newExpression rules
    else if w == "import" then importExpression rules
    else if w == "super" then
      advance
      if !((← isMark ".") || (← isMark "[") || (← isMark "(")) then complain
      node place .superclass
    else failure
  | .number t => advance; node place (.number t)
  | .bigint t => advance; node place (.bigint t)
  | .string s lossy => advance; node place (.string s lossy)
  | .mark "(" => parenthesized rules
  | .mark "[" => arrayLiteral rules
  | .mark "\x7b" => objectLiteral rules
  | .mark "`" => template rules false
  | .mark "/" | .mark "/=" =>
    reread Lexer.readPattern
    match ← lexeme with
    | .pattern body flags => advance; node place (.pattern body flags)
    | _ => failure
  | .mark "@" =>
    let ds ← decorators rules
    classFrom rules place ds .expression {}
  | _ => failure

def callee (rules : Rules) : Parser Node := do
  let place ← start
  let e ← primary rules
  return (← memberRest rules place false (e, false)).1

def leftHand (rules : Rules) : Parser Node := do
  let place ← start
  let e ← primary rules
  let (e, chained) ← callRest rules place (e, false)
  if chained then node place .chain [e] else return e

/-! ## Operators -/

/-- Whether markup begins with the `<` here. -/
def opensMarkup : Parser Bool := do
  if !((← get).extended && (← isMark "<")) then return false
  let t ← following
  return isAnyName t.lexeme || t.lexeme == .mark ">"

def updateExpression (rules : Rules) : Parser Node := do
  let place ← start
  if (← isMark "++") || (← isMark "--") then
    let increment ← isMark "++"
    advance
    let e ← rules .unary
    let t ← simpleTarget place e
    return ← node place (.update increment true) [t]
  let e ← if ← opensMarkup then rules (.element false) else leftHand rules
  if ((← isMark "++") || (← isMark "--")) && !(← onNewLine) then
    let increment ← isMark "++"
    let t ← simpleTarget place e
    advance
    node place (.update increment false) [t]
  else return e

def unary (rules : Rules) : Parser Node := do
  let place ← start
  let op : Option UnaryOp := match ← lexeme with
    | .mark m => UnaryOp.ofText? m
    | .word w false => UnaryOp.ofText? w
    | _ => none
  match op with
  | some op =>
    advance
    let e ← rules .unary
    node place (.unary op) [e]
  | none =>
    if (← isWord "await") && (← context).awaits then
      advance
      let e ← rules .unary
      node place .await [e]
    else updateExpression rules

/-- Whether `??` stands next to `||` or `&&` without parentheses. -/
def mixesDefaults (op : BinaryOp) (l r : Node) : Bool :=
  let isLogic (n : Node) := match n.kind with
    | .binary .or | .binary .and => true
    | _ => false
  let isNullish (n : Node) := match n.kind with
    | .binary .nullish => true
    | _ => false
  match op with
  | .nullish => isLogic l || isLogic r
  | .or | .and => isNullish l || isNullish r
  | _ => false

/-- The operator here: one of two operands, or one that is followed by a type. -/
inductive Operator where
  | binary (op : BinaryOp)
  | as
  | satisfies

def operator : Parser (Option Operator) := do
  reread Lexer.readGreater
  let s ← get
  match s.token.lexeme with
  | .mark m => return (BinaryOp.ofText? m).map .binary
  | .word w false =>
    if w == "in" then return if s.context.isIn then some (.binary .in) else none
    else if w == "instanceof" then return some (.binary .instanceof)
    else if w == "as" && s.extended && !s.token.onNewLine then return some .as
    else if w == "satisfies" && s.extended && !s.token.onNewLine then return some .satisfies
    else return none
  | _ => return none

/-- What follows the left operand of operators that bind more tightly than a level. -/
def binaryRest (rules : Rules) (above : Level) (place : Nat) (l : Node) : Parser Node :=
  iterate (fun l => do
    match ← operator with
    | none => return none
    | some (.binary op) =>
      if op.level < above || (op.level == above && op != .power) then return none
      match op, l.kind with
      | .power, .unary _ | .power, .await => complainOf (.expected [";"] "expression statement")
      | _, _ => pure ()
      advance
      let r ← rules (.binary op.level)
      if mixesDefaults op l r then complain
      return some (← node place (.binary op) [l, r])
    | some .as =>
      if Level.compare ≤ above then return none
      advance
      let t ← rules .type
      return some (← node place .asType [l, t])
    | some .satisfies =>
      if Level.compare ≤ above then return none
      advance
      let t ← rules .type
      return some (← node place .satisfiesType [l, t])) l

/-- Notes on the call that an expression begins with that it has no effects. -/
def markPure : Node → Node
  | .mk (.call o _) s cs => .mk (.call o true) s cs
  | .mk (.construct _) s cs => .mk (.construct true) s cs
  | .mk (.binary op) s (l :: cs) => .mk (.binary op) s (markPure l :: cs)
  | .mk .conditional s (t :: cs) => .mk .conditional s (markPure t :: cs)
  | .mk .chain s [.mk (.call o _) t cs] => .mk .chain s [.mk (.call o true) t cs]
  | .mk .paren s [e] => .mk .paren s [markPure e]
  | n => n

/-- Notes on a function that calls of it have no effects. -/
def markEffectFree : Node → Node
  | .mk (.function r st d) s cs => .mk (.function { r with effectFree := true } st d) s cs
  | .mk (.arrow r) s cs => .mk (.arrow { r with effectFree := true }) s cs
  | n => n

def binary (rules : Rules) (above : Level) : Parser Node := do
  let place ← start
  let t ← token
  let l ← match t.lexeme with
    | .privateName w => do
      advance
      let name ← node place (.privateName w)
      if !((← isWord "in") && (← context).isIn) then missing ["in"] "relational expression"
      advance
      let r ← rules (.binary Level.compare)
      match r with
      | .mk (.binary _) _ (.mk (.privateName _) _ _ :: _) => complain
      | _ => pure ()
      node place (.binary .in) [name, r]
    | _ => do
      let e ← unary rules
      pure (if t.isPure then markPure e else e)
  binaryRest rules above place l

/-! ## Functions in arrow form -/

/-- What a few tokens say about whether a function in arrow form begins here. -/
inductive Guess where
  | no | maybe | yes
deriving DecidableEq, Repr

def arrowLookInside (extended : Bool) : Parser Guess := do
  if ← isMark "(" then
    advance
    match ← lexeme with
    | .mark ")" =>
      advance
      if (← isMark "=>") || (← isMark "\x7b") then return .yes
      else if (← isMark ":") && extended then return .maybe
      else return .no
    | .mark "[" | .mark "\x7b" => return .maybe
    | .mark "..." => return .yes
    | l =>
      let second := l
      if !(isIdentifier l || l == .word "this" false) then return .no
      advance
      match ← lexeme with
      | .mark ":" => return if extended then .yes else .no
      | .mark "?" =>
        if !extended then return .no
        advance
        if ← isAnyMark [":", ",", "=", ")"] then return .yes else return .no
      | .mark "," | .mark "=" | .mark ")" => return .maybe
      | l =>
        let isModifier := match second with
          | .word w false => (accessOf? w).isSome || w == "readonly" || w == "override"
          | _ => false
        return if isModifier && isIdentifier l && l != .word "as" false then .yes else .no
  else if (← isMark "<") && extended then
    advance
    if !(isIdentifier (← lexeme) || (← isWord "const")) then return .no
    let _ ← eatWord "const"
    advance
    if ← eatWord "extends" then
      return if ← isAnyMark ["=", ">", "/"] then .no else .yes
    else if ← isAnyMark [",", "="] then return .yes
    else return .no
  else return .no

def arrowLook : Parser Guess := do
  let extended := (← get).extended
  let guess ← look do
    if ← isWord "async" then
      advance
      if ← onNewLine then return .no
      if !((← isMark "(") || (← isMark "<")) then return .no
    arrowLookInside extended
  return guess.getD .no

/-- The body of a function in arrow form. -/
def arrowBody (rules : Rules) (async resultType : Bool) : Parser Node := do
  if ← isMark "\x7b" then functionBody rules { async }
  else
    within (fun c => { c with yields := false, awaits := async })
      (rules (.assignment resultType))

/-- The arrow itself, which has to stand on the line of what is in front of it. -/
def arrowMark : Parser Unit := do
  if ← onNewLine then failure
  expectMark "=>"

/-- A function in arrow form with parentheses around its parameters. -/
def arrowFunction (rules : Rules) (resultAllowed : Bool) : Parser Node := do
  let place ← start
  let async ← eatWord "async"
  let tps ← typeParameters rules
  let ps ← within (fun c => { c with awaits := async, yields := false })
    (parameters rules "arrow function")
  let r ← optional (← eatMark ":") (resultType rules)
  arrowMark
  let b ← arrowBody rules async resultAllowed
  if !resultAllowed && !r.isAbsent && !(← isMark ":") then failure
  if ps.children.any fun p => isSelf (p.child 1) then complain
  node place (.arrow { async }) [tps, ps, r, b]

/-- A function in arrow form whose parameter is only a name. -/
def shortArrow (rules : Rules) (place : Nat) (async resultAllowed : Bool) (name : Node) :
    Parser Node := do
  arrowMark
  let b ← arrowBody rules async resultAllowed
  let p := Node.mk (.parameter {}) name.span [.absent, name]
  node place (.arrow { async }) [.absent, .mk .group name.span [p], .absent, b]

/-- A function in arrow form, if one is here. -/
def arrow? (rules : Rules) (resultAllowed : Bool) : Parser (Option Node) := do
  match ← arrowLook with
  | .yes =>
    if resultAllowed then return some (← arrowFunction rules true)
    else attempt (arrowFunction rules false)
  | .maybe =>
    let place ← start
    if (← get).notArrow.contains place then return none
    match ← attempt (arrowFunction rules resultAllowed) with
    | some f => return some f
    | none =>
      modify fun s => { s with notArrow := place :: s.notArrow }
      return none
  | .no =>
    let place ← start
    let t ← following
    if (← isWord "async") && isIdentifier t.lexeme && !t.onNewLine then
      attempt do
        advance
        let name ← within (fun c => { c with awaits := true }) identifier
        shortArrow rules place true resultAllowed name
    else return none

/-! ## Assignments -/

def yieldExpression (rules : Rules) : Parser Node := do
  let place ← start
  expectWord "yield"
  if (← onNewLine) then return ← node place (.yield false) [.absent]
  if ← eatMark "*" then
    let e ← rules (.assignment true)
    node place (.yield true) [e]
  else
    let l ← lexeme
    let ends := match l with
      | .mark m => [")", "]", "\x7d", ",", ";", ":"].contains m
      | .word w false => w == "in"
      | .finish => true
      | _ => false
    if ends then node place (.yield false) [.absent]
    else
      let e ← rules (.assignment true)
      node place (.yield false) [e]

def conditionalRest (rules : Rules) (resultAllowed : Bool) (place : Nat) (test : Node) :
    Parser Node := do
  if ← eatMark "?" then
    let yes ← within (fun c => { c with isIn := true }) (rules (.assignment false))
    demandMark "conditional expression" ":"
    let no ← rules (.assignment resultAllowed)
    node place .conditional [test, yes, no]
  else return test

def assignmentOrRest (rules : Rules) (resultAllowed : Bool) (place : Nat) (l : Node) :
    Parser Node := do
  if l.name?.isSome && (← isMark "=>") then
    return ← shortArrow rules place false resultAllowed l
  let op := match ← lexeme with
    | .mark m => BinaryOp.ofAssignment? m
    | _ => none
  match op with
  | some op =>
    let t ← match op with
      | none => target place l
      | some _ => simpleTarget place l
    advance
    let r ← rules (.assignment resultAllowed)
    node place (.assign op) [t, r]
  | none => conditionalRest rules resultAllowed place l

/-- An expression without a comma, with what a comment in front of it says about effects. -/
def assignment (rules : Rules) (resultAllowed : Bool) : Parser Node := do
  let t ← token
  let marked (f : Node) : Node := if t.isEffectFree then markEffectFree f else f
  if (← isWord "yield") && (← context).yields then return ← yieldExpression rules
  match ← arrow? rules resultAllowed with
  | some f => return marked f
  | none =>
    let place ← start
    let l ← rules (.binary Level.comma)
    let e ← assignmentOrRest rules resultAllowed place l
    return marked (if t.isPure then markPure e else e)

end PagePreview.Script.Parser
