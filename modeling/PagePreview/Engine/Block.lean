import PagePreview.Engine.Pattern

/-!
# Rows of statements and calls of functions

Statements run one after the other until one of them does not end normally.
A function binds its parameters, declares what its body declares, and runs
it.
-/

namespace PagePreview.Engine

open Script

/-- The value of a row of statements is that of the last one that has any. -/
def Completion.orValue (c : Completion) (v : Option Value) : Completion :=
  match c with
  | .normal w => .normal (w.or v)
  | .leave l w => .leave l (w.or v)
  | .next l w => .next l (w.or v)
  | .give v => .give v

/-- Runs statements in the scope of `env`. -/
def runStatements (env : Env) : List Node → Option Value → Run Completion
  | [], v => return .normal v
  | n :: ns, v => do
    match (← execute env n).orValue v with
    | .normal v => runStatements env ns v
    | c => return c

/-- Runs statements in a scope of their own, if they declare something. -/
def runBlock (env : Env) (ns : List Node) : Run Completion := do
  if declares ns then
    let env ← within env []
    declareAmong env ns
    runStatements env ns none
  else runStatements env ns none

/-! ## Calls -/

/-- As many calls may be in progress, scripts included. -/
def maxCalls : Nat := 512

/-- Runs an action one level deeper. -/
def oneDeeper {α : Type} (action : Run α) : Run α := do
  let depth := (← get).depth
  modify ({ · with depth := depth + 1 })
  let leave : Run Unit := modify ({ · with depth })
  let a ← action.orElse fun s => do leave; throw s
  leave
  return a

/-- Runs an action as a call. -/
def asCall {α : Type} (action : Run α) : Run α := do
  if maxCalls ≤ (← get).depth then throw .tooDeep
  oneDeeper action

/-- Binds parameters to arguments. -/
def bindParameters (env : Env) : List Node → List Value → Run Unit
  | [], _ => return ()
  | .mk (.parameter _) _ [_, .mk .rest _ [p]] :: _, args => do
    assignTo Put.declare env p (← listOf args)
  | p :: ps, args => do
    assignTo Put.declare env p (args.headD .undefined)
    bindParameters env ps args.tail

/-- The scope in which the body of a function runs. -/
def enterFunction (f : Ref) (c : Closure) (self : Option Value) (args : List Value)
    (newTarget : Value) : Run Env := do
  let info : CallInfo := { self, function := some f, arguments := args, newTarget, home := c.home }
  let bindings := (boundNamesAmong c.parameters).eraseDups.map fun s =>
    (s, ({ value := none } : Binding))
  let r ← enclose {
    parent := some c.env.scope, bindings, holdsVariables := true
    call := if c.manner == .arrow then none else some info }
  let env := { c.env with scope := r }
  bindParameters env c.parameters args
  match c.body with
  | .mk .body _ ns => declareInFunction env ns
  | _ => pure ()
  return env

/-- Runs the body of a function. -/
def runBody (env : Env) (body : Node) : Run Value := do
  match body with
  | .mk .body _ ns =>
    match ← runStatements env ns none with
    | .give v => return v
    | _ => return .undefined
  | .mk .absent _ _ => return .undefined
  | e => evaluate env e

/-- What `this` stands for in a function that is called with a value for it. -/
def Closure.self (c : Closure) (self : Value) : Run Value := do
  if c.env.strict then return self
  match self with
  | .undefined | .null => return Intrinsic.global.value
  | .object _ => return self
  | v => return .object (← toObject v)

/-! ## Instances -/

/-- The prototype of what a constructor makes. -/
def protoOf (newTarget : Value) (usual : Intrinsic) : Run Ref := do
  match newTarget with
  | .object t =>
    match ← getNamed t "prototype" with
    | .object p => return p
    | _ => return usual.ref
  | _ => return usual.ref

/-- The place of code that belongs to an object: a field, or a static block. -/
def memberEnv (env : Env) (self : Value) (home : Ref) : Run Env := do
  let call : CallInfo := { self := some self, function := none, home := some home }
  return { env with
    scope := ← enclose { parent := some env.scope, call := some call, holdsVariables := true } }

/-- Gives an instance the fields of its class. -/
def addFields (f : Ref) (instanceRef : Ref) : Run Unit := do
  match ← bodyOf f with
  | .closure c =>
    for (k, p) in c.hidden do
      changeObject instanceRef (·.store k p)
    for field in c.fields do
      let env ← memberEnv c.env (.object instanceRef) (c.home.getD f)
      let v ← if field.value.isAbsent then pure .undefined
        else evaluateNamed env (← field.key.shown) field.value
      match field.key with
      | .hidden _ => changeObject instanceRef (·.store field.key (.quiet v))
      | k => defineOwn instanceRef k (.ofValue v)
  | _ => return ()

/-- Calls the constructor of the base class and binds `this` to what it makes. -/
def constructBase (env : Env) (args : List Value) : Run Value := do
  let info ← callInfo env
  match info.function, ← callScope maxScopes env.scope with
  | some f, some r =>
    match (← object f).proto with
    | some base =>
      if !(← isConstructor (.object base)) then typeError "super constructor object must be constructor"
      let made ← construct (.object base) args info.newTarget
      if (← callInfo env).self.isSome then referenceError "this already initialized"
      changeScope r fun s => { s with call := s.call.map fun i => { i with self := some made } }
      match made with
      | .object o => addFields f o
      | _ => pure ()
      return made
    | none => typeError "super constructor object must be constructor"
  | _, _ => syntaxError "'super' keyword unexpected here"

/-- Makes an instance with a function of a script. -/
def constructClosure (f : Ref) (c : Closure) (args : List Value) (newTarget : Value) :
    Run Value := do
  match c.manner with
  | .constructor true =>
    let env ← enterFunction f c none args newTarget
    let v ← if c.body.isAbsent then constructBase env args else runBody env c.body
    match v with
    | .object _ => return v
    | .undefined => selfOf env
    | _ => typeError "derived constructor can only return an Object or undefined"
  | _ =>
    let made ← allocate { proto := some (← protoOf newTarget .objectProto) }
    addFields f made
    let env ← enterFunction f c (some (.object made)) args newTarget
    match ← runBody env c.body with
    | .object r => return .object r
    | _ => return .object made

end PagePreview.Engine
