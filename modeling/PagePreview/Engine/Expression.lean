import PagePreview.Engine.Class
import PagePreview.Engine.Evaluation
import PagePreview.Engine.Operate
import PagePreview.Engine.Pausing

/-!
# Expressions

What an expression gives is said by its kind. Names and properties can also
be assigned to; they are `Place`s. In a chain, an optional link behind
nothing ends the whole chain.
-/

namespace PagePreview.Engine

open Script

/-! ## Parts -/

/-- Values that may be spread. -/
def evaluateItems (env : Env) (ns : List Node) : Run (Array (Option Value)) :=
  ns.foldlM (fun seen n => do
    match n with
    | .mk .spread _ [e] =>
      foldValues (← evaluate env e) (fun seen v => return seen.push (some v)) seen
    | .mk .absent _ _ => return seen.push none
    | n => return seen.push (some (← evaluate env n))) #[]

def evaluateArguments (env : Env) (ns : List Node) : Run (List Value) :=
  return (← evaluateItems env ns).toList.map (·.getD .undefined)

/-- The texts of a template and the values between them, in a row. -/
def evaluateTemplate (env : Env) (parts : List Node) : Run Value := do
  let mut text := ""
  for n in parts do
    match n.kind with
    | .chunk raw cooked => text := text ++ cooked.getD raw
    | _ => text := text ++ (← toText (← evaluate env n))
  return .text text

/-- The texts of a template as a function takes them: what they stand for, and as written. -/
def templateTexts (parts : List Node) : Run Value := do
  let chunks := parts.filterMap fun n => match n.kind with
    | .chunk raw cooked => some (Value.text raw, cooked.elim .undefined Value.text)
    | _ => none
  let raw ← listOf (chunks.map (·.1))
  let texts ← listOf (chunks.map (·.2))
  match texts with
  | .object r => changeObject r fun o => { o.store (.text "raw") (.fixed raw) with
      extensible := false }
  | _ => pure ()
  return texts

/-- The whole number that is written with an `n` behind it. -/
def bigintValue (text : String) : Int :=
  let digits := String.ofList (text.toList.filter fun c => c != 'n' && c != '_')
  (textBigint? (String.ofList (digits.toList.map Char.toLower))).getD 0

/-! ## Places -/

/-- What can be read and assigned to. -/
inductive Place where
  | name (s : String)
  | property (base : Value) (k : Key)
  /-- A property that the prototypes of an object are asked for, on behalf of a value. -/
  | inherited (proto : Ref) (self : Value) (k : Key)

namespace Place

def get (env : Env) : Place → Run Value
  | name s => getName env s
  | property base k =>
    match k with
    | .hidden _ => getHidden base k
    | k => getOf base k
  | inherited proto self k => getFrom proto k self

def put (env : Env) (v : Value) : Place → Run Unit
  | name s => setName env s v
  | property base k => assignProperty env base k v
  | inherited _ self k => assignProperty env self k v

def delete (env : Env) : Place → Run Bool
  | name s => do
    match ← locate env s with
    | .property o => deleteProperty env.strict o (.text s)
    | .binding .. => return false
    | .nowhere => return true
  | property base k => do deleteProperty env.strict (← toObject base) k
  | inherited .. => referenceError "cannot delete a property of 'super'"

end Place

/-- The place that an expression names, if it does. -/
def placeOf? (env : Env) (n : Node) : Run (Option Place) := do
  match n.bare with
  | .mk (.name s) _ _ => return some (.name s)
  | .mk (.member _) _ [.mk .superclass _ _, k] =>
    let self ← selfOf env
    return some (.inherited (← superObject env) self (← memberKey env k))
  | .mk (.index _) _ [.mk .superclass _ _, k] =>
    let self ← selfOf env
    let k ← toKey (← evaluate env k)
    return some (.inherited (← superObject env) self k)
  | .mk (.member _) _ [o, k] =>
    let base ← evaluate env o
    return some (.property base (← memberKey env k))
  | .mk (.index _) _ [o, k] =>
    let base ← evaluate env o
    let k ← evaluate env k
    if base.isNullish then let _ ← toObject base
    return some (.property base (← toKey k))
  | _ => return none

/-! ## Links of chains -/

/-- Reads a property behind a point. -/
def readMember (env : Env) (base : Value) (k : Node) : Run Value := do
  Place.get env (.property base (← memberKey env k))

/-- Whether a function is the one that evaluates texts. -/
def isEvaluator (f : Value) : Run Bool := do
  match ← f.body with
  | .native "global" "eval" _ _ => return true
  | _ => return false

/-- The object of a `with` statement that a name belongs to, which its functions are called on. -/
def ownerOfName (env : Env) (s : String) : Run Value := do
  match ← locate env s with
  | .property o => return if o == Intrinsic.global.ref then .undefined else .object o
  | _ => return .undefined

/-- The value of an expression and what a function found there is called on; nothing if an
optional link has ended the chain. -/
def evaluateLink (env : Env) : Node → Run (Option (Value × Value))
  | .mk .paren _ [e] => evaluateLink env e
  | .mk .chain _ [e] => do
    return some ((← evaluateLink env e).getD (.undefined, .undefined))
  | .mk (.name s) _ _ => do
    return some (← getName env s, ← ownerOfName env s)
  | .mk (.member _) _ [.mk .superclass _ _, k] => do
    let self ← selfOf env
    return some (← getFrom (← superObject env) (← memberKey env k) self, self)
  | .mk (.index _) _ [.mk .superclass _ _, k] => do
    let self ← selfOf env
    let k ← toKey (← evaluate env k)
    return some (← getFrom (← superObject env) k self, self)
  | .mk (.member optional) _ [o, k] => do
    match ← evaluateLink env o with
    | none => return none
    | some (base, _) =>
      if optional && base.isNullish then return none
      return some (← readMember env base k, base)
  | .mk (.index optional) _ [o, k] => do
    match ← evaluateLink env o with
    | none => return none
    | some (base, _) =>
      if optional && base.isNullish then return none
      let k ← evaluate env k
      match base, k, ← base.body with
      | .object r, .number x, .array items =>
        match (lengthOf? k).bind fun i => items[i]?.join with
        | some v => return some (v, base)
        | none => return some (← getFrom r (← toKey (.number x)) base, base)
      | _, k, _ =>
        if base.isNullish then let _ ← toObject base
        return some (← getOf base (← toKey k), base)
  | .mk (.call _ _) _ [.mk .superclass _ _, _, args] => do
    return some (← constructBase env (← evaluateArguments env args.children), .undefined)
  | .mk (.call optional _) _ [f, _, args] => do
    match ← evaluateLink env f with
    | none => return none
    | some (function, self) =>
      if optional && function.isNullish then return none
      let values ← evaluateArguments env args.children
      if f.name? == some "eval" then
        if ← isEvaluator function then
          return some (← evaluateIn env (values.headD .undefined), .undefined)
      return some (← call function self values, .undefined)
  | n => do return some (← evaluate env n, .undefined)

/-! ## Operators -/

def evaluateBinary (env : Env) (op : BinaryOp) (a b : Node) : Run Value := do
  match op, a with
  | .and, _ =>
    let v ← evaluate env a
    if v.truth then evaluate env b else return v
  | .or, _ =>
    let v ← evaluate env a
    if v.truth then return v else evaluate env b
  | .nullish, _ =>
    let v ← evaluate env a
    if v.isNullish then evaluate env b else return v
  | .in, .mk (.privateName s) _ _ =>
    let k ← privateKey env s
    match ← evaluate env b with
    | .object r => return .boolean (← hasOwn r k)
    | v =>
      typeError ("right-hand side of 'in' should be an object, got `" ++ (← typeOf v) ++ "`")
  | op, _ =>
    let x ← evaluate env a
    let y ← evaluate env b
    operate op x y

def evaluateUnary (env : Env) (op : UnaryOp) (e : Node) : Run Value := do
  match op, e.bare with
  | .typeof, .mk (.name s) _ _ => return .text (← typeOfName env s)
  | .delete, .mk .chain _ [link] =>
    match link with
    | .mk (.member _) _ [o, k] =>
      match ← evaluateLink env o with
      | none => return .boolean true
      | some (base, _) =>
        if base.isNullish then return .boolean true
        return .boolean (← Place.delete env (.property base (← memberKey env k)))
    | _ =>
      let _ ← evaluate env e
      return .boolean true
  | .delete, _ =>
    match ← placeOf? env e with
    | some p => return .boolean (← p.delete env)
    | none =>
      let _ ← evaluate env e
      return .boolean true
  | op, _ => do operateAlone op (← evaluate env e)

/-- The name that a function takes which is assigned to an expression. -/
def targetName (n : Node) : String := n.name?.getD ""

def evaluateAssign (env : Env) (op : Option BinaryOp) (target e : Node) : Run Value := do
  match ← placeOf? env target with
  | none =>
    let v ← evaluate env e
    assignTo Put.assign env target v
    return v
  | some p =>
    match op with
    | none =>
      let v ← evaluateNamed env (targetName target) e
      p.put env v
      return v
    | some op =>
      let old ← p.get env
      let keeps := match op with
        | .and => !old.truth
        | .or => old.truth
        | .nullish => !old.isNullish
        | _ => false
      if keeps then return old
      let v ← match op with
        | .and | .or | .nullish => evaluateNamed env (targetName target) e
        | op => do
          let y ← evaluate env e
          operate op old y
      p.put env v
      return v

/-- Adds one to a place, or takes one away. -/
def evaluateUpdate (env : Env) (increment before : Bool) (e : Node) : Run Value := do
  match ← placeOf? env e with
  | none => syntaxError "invalid assignment target"
  | some p =>
    let old ← toNumeric (← p.get env)
    let new : Value := match old with
      | .bigint i => .bigint (if increment then i + 1 else i - 1)
      | .number x => .number (if increment then x + 1 else x - 1)
      | v => v
    p.put env new
    return if before then new else old

/-! ## Functions that pause -/

/-- Whether the function that runs is asynchronous. -/
def isAsynchronous (env : Env) : Run Bool := do
  match (← callInfo env).function with
  | some f =>
    match ← bodyOf f with
    | .closure c => return c.routine.async
    | _ => return false
  | none => return false

/-- Hands out a value, after it has been waited for if the function is asynchronous. -/
def yieldValue (env : Env) (v : Value) : Run Value := do
  if ← isAsynchronous env then pause (.yield (← awaitValue v)) else pause (.yield v)

/-- Hands out all values of something. -/
def yieldAll (env : Env) (v : Value) : Run Value := do
  if ← isAsynchronous env then
    let (it, ordinary) ← streamOf v
    iterate (fun () => do
      match ← it.stepAwaited ordinary with
      | none => return .inr .undefined
      | some v =>
        let _ ← pause (.yield v)
        return .inl ()) ()
  else delegate v

/-! ## Modules -/

/-- Asks for a module. The promise is settled when it has been loaded and has run. -/
def importModule (specifier : Value) : Run Value := do
  let c ← newPromise
  match ← catching (toText specifier) with
  | .ok address =>
    modify fun m => { m with
      imports := m.imports ++ [{ address, resolve := c.resolve, reject := c.reject }] }
  | .error e => let _ ← call c.reject .undefined [e]
  return c.promise

/-! ## All expressions -/

/-- The name that has been set aside for a class without one. -/
def waitingName (env : Env) : Run String := do
  match (← scope env.scope).bindings.lookup "*name" with
  | some { value := some (.text s), .. } => return s
  | _ => return ""

def evaluateNode (env : Env) (n : Node) : Run Value := do
  match n with
  | .mk (.name s) _ _ => getName env s
  | .mk (.number t) _ _ => return .number (Numeral.value t)
  | .mk (.string s _) _ _ => return .text s
  | .mk (.boolean b) _ _ => return .boolean b
  | .mk .null _ _ => return .null
  | .mk (.bigint t) _ _ => return .bigint (bigintValue t)
  | .mk .self _ _ => selfOf env
  | .mk (.pattern body flags) _ _ =>
    return .object (← allocate {
      body := .pattern body flags, proto := some Intrinsic.patternProto.ref
      properties := #[(.text "lastIndex", ⟨.data (.number 0) true, false, false⟩)] })
  | .mk .template _ parts => evaluateTemplate env parts
  | .mk .array _ items => arrayOf (← evaluateItems env items)
  | .mk .object _ members => objectLiteral env members
  | .mk (.function _ _ _) _ _ => functionExpression env "" n
  | .mk (.arrow _) _ _ => makeFunction (closureOf env .arrow n) ""
  | .mk (.classDef _ _) _ _ => makeClass env (← waitingName env) n
  | .mk (.unary op) _ [e] => evaluateUnary env op e
  | .mk (.update increment before) _ [e] => evaluateUpdate env increment before e
  | .mk (.binary op) _ [a, b] => evaluateBinary env op a b
  | .mk (.assign op) _ [t, e] => evaluateAssign env op t e
  | .mk .conditional _ [test, a, b] =>
    if (← evaluate env test).truth then evaluate env a else evaluate env b
  | .mk .sequence _ es =>
    es.foldlM (fun _ e => evaluate env e) .undefined
  | .mk .paren _ [e] => evaluate env e
  | .mk .chain .. | .mk (.member _) .. | .mk (.index _) .. | .mk (.call _ _) .. =>
    return ((← evaluateLink env n).getD (.undefined, .undefined)).1
  | .mk (.construct _) _ [f, _, args] =>
    let function ← evaluate env f
    let values ← evaluateArguments env args.children
    construct function values
  | .mk .tagged _ [tag, _, .mk _ _ parts] =>
    match ← evaluateLink env tag with
    | none => return .undefined
    | some (function, self) =>
      let texts ← templateTexts parts
      let values ← (parts.filter fun p => !(p.kind matches .chunk _ _)).mapM (evaluate env)
      call function self (texts :: values)
  | .mk (.importCall _) _ (specifier :: _) => importModule (← evaluate env specifier)
  | .mk (.metaProperty "new" _) _ _ => return (← callInfo env).newTarget
  | .mk (.metaProperty _ _) _ _ => return .object (← allocate {})
  | .mk .await _ [e] => awaitValue (← evaluate env e)
  | .mk (.yield all) _ [e] =>
    let v ← if e.isAbsent then pure .undefined else evaluate env e
    if all then yieldAll env v else yieldValue env v
  | _ => syntaxError "expression cannot be evaluated"

end PagePreview.Engine
