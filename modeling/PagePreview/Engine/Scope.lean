import PagePreview.Engine.Convert

/-!
# Names

A name is looked for in the scope where it is used and in the scopes around
it. The outermost scope has the properties of the global object as its names.
A name is bound before it has a value, and must not be used in between.
-/

namespace PagePreview.Engine

/-- The names that a scope may look through: more than there ever are. -/
def maxScopes : Nat := 100000

/-- Where a name is bound. -/
inductive Site where
  | binding (scope : Ref) (b : Binding)
  | property (object : Ref)
  | nowhere

/-- The values that a function has been called with, as an object. -/
def argumentsObject (values : List Value) : Run Value := do
  let items := values.mapIdx fun i v => (Key.ofNat i, Property.ofValue v)
  let properties := items.toArray ++ #[
    (Key.text "length", .quiet (.number (Float.ofNat values.length))),
    (WellKnown.iterator.key, .quiet (← getNamed Intrinsic.arrayProto.ref "values"))]
  return .object (← allocate {
    body := .arguments, proto := some Intrinsic.objectProto.ref, properties })

/-- Binds a name in a scope. -/
def bind (r : Ref) (name : String) (b : Binding) : Run Unit :=
  changeScope r fun s =>
    let rest := if (s.bindings.lookup name).isSome then s.bindings.filter (·.1 != name)
      else s.bindings
    { s with bindings := (name, b) :: rest }

def locateWithin (name : String) : (bound : Nat) → Ref → Run Site
  | 0, _ => throw .tooDeep
  | bound + 1, r => do
    let s ← scope r
    let outer : Run Site := match s.parent with
      | some p => locateWithin name bound p
      | none => return .nowhere
    match s.bindings.lookup name, s.object, s.call with
    | some b, _, _ => return .binding r b
    | none, some o, _ =>
      if ← hasProperty o (.text name) then return .property o else outer
    | none, none, some { function := some _, arguments := args, .. } =>
      if name != "arguments" then outer
      else
        let b : Binding := { value := some (← argumentsObject args) }
        bind r name b
        return .binding r b
    | none, none, _ => outer

/-- Finds where a name is bound. -/
def locate (env : Env) (name : String) : Run Site := locateWithin name maxScopes env.scope

/-- The value of a name. -/
def getName (env : Env) (name : String) : Run Value := do
  match ← locate env name with
  | .binding _ { value := some v, .. } => return v
  | .property o => getNamed o name
  | _ => referenceError (name ++ " is not defined")

/-- Assigns to a name. -/
def setName (env : Env) (name : String) (v : Value) : Run Unit := do
  match ← locate env name with
  | .binding _ { value := none, .. } =>
    referenceError ("cannot assign to uninitialized binding `" ++ name ++ "`")
  | .binding r b =>
    if b.constant then
      if !b.lenient || env.strict then
        typeError ("cannot mutate an immutable binding '" ++ name ++ "'")
    else changeScope r fun s =>
      { s with bindings := s.bindings.map fun e =>
          if e.1 == name then (name, { b with value := some v }) else e }
  | .property o => setProperty env.strict o (.text name) v
  | .nowhere =>
    if env.strict then
      referenceError ("cannot assign to uninitialized global property `" ++ name ++ "`")
    setProperty false Intrinsic.global.ref (.text name) v

/-- Gives a name of the scope itself its first value. -/
def startName (env : Env) (name : String) (v : Value) : Run Unit :=
  changeScope env.scope fun s =>
    { s with bindings := s.bindings.map fun e =>
        if e.1 == name then (name, { e.2 with value := some v }) else e }

/-- The kind of the value of a name, which need not be bound. -/
def typeOfName (env : Env) (name : String) : Run String := do
  match ← locate env name with
  | .nowhere => return "undefined"
  | _ => typeOf (← getName env name)

/-! ## Around functions -/

/-- The scope of the function that runs, or of the script or module around it. -/
def callScope : (bound : Nat) → Ref → Run (Option Ref)
  | 0, _ => throw .tooDeep
  | bound + 1, r => do
    let s ← scope r
    match s.call, s.parent with
    | some _, _ => return some r
    | none, some p => callScope bound p
    | none, none => return none

/-- What the call of the function that runs has set. -/
def callInfo (env : Env) : Run CallInfo := do
  match ← callScope maxScopes env.scope with
  | some r => return (← scope r).call.getD { self := none, function := none }
  | none => return { self := some .undefined, function := none }

/-- What `this` stands for. -/
def selfOf (env : Env) : Run Value := do
  match (← callInfo env).self with
  | some v => return v
  | none =>
    referenceError "Must call super constructor in derived class before accessing 'this' or returning from derived constructor"

/-- The scope that variables declared with `var` belong to. -/
def variableScope : (bound : Nat) → Ref → Run Ref
  | 0, _ => throw .tooDeep
  | bound + 1, r => do
    let s ← scope r
    match s.holdsVariables, s.parent with
    | false, some p => variableScope bound p
    | _, _ => return r

/-- The key of a private name. -/
def privateKey (env : Env) (name : String) : Run Key := do
  match ← locate env ("#" ++ name) with
  | .binding _ { value := some (.symbol id), .. } => return .hidden id
  | _ => syntaxError "private identifier not declared"

end PagePreview.Engine
