import PagePreview.Engine.Declarations
import PagePreview.Engine.Scope

/-!
# Functions of a script

A function is made where its expression or declaration stands and keeps the
scope of that place. A function without a name takes the one of what it is
assigned to.
-/

namespace PagePreview.Engine

open Script

/-- The object that instances of a function have as their prototype, which knows the function. -/
def instanceProto (f : Ref) : Run Unit := do
  let proto ← allocate {
    proto := some Intrinsic.objectProto.ref
    properties := #[(.text "constructor", .quiet (.object f))] }
  changeObject f (·.store (.text "prototype") ⟨.data (.object proto) true, false, false⟩)

/-- Makes a function. -/
def makeFunction (c : Closure) (name : String) : Run Value := do
  let properties := #[
    (Key.text "length", Property.settled (.number (Float.ofNat (parameterCount c.parameters)))),
    (Key.text "name", Property.settled (.text name))]
  let f ← allocate {
    body := .closure c, proto := some Intrinsic.functionProto.ref, properties }
  if c.routine.generator then
    let usual : Intrinsic := if c.routine.async then .streamProto else .generatorProto
    let proto ← allocate { proto := some usual.ref }
    changeObject f (·.store (.text "prototype") ⟨.data (.object proto) true, false, false⟩)
  else if c.manner == .plain && !c.routine.async then instanceProto f
  return .object f

/-- The closure of a function or arrow node. -/
def closureOf (env : Env) (manner : Manner) (n : Node) : Closure :=
  let body (b : Node) : Env :=
    match b with
    | .mk .body _ ns => if isStrict ns then { env with strict := true } else env
    | _ => env
  match n with
  | .mk (.function routine _ _) _ [_, _, ps, _, b] =>
    { env := body b, parameters := ps.children, body := b, routine, manner, whole := n }
  | .mk (.arrow routine) _ [_, ps, _, b] =>
    { env := body b, parameters := ps.children, body := b, routine, manner := .arrow, whole := n }
  | n => { env, parameters := [], body := n, routine := {}, manner, whole := n }

/-- The function of a declaration. -/
def declaredFunction (env : Env) (name : String) (n : Node) : Run Value :=
  makeFunction (closureOf env .plain n) name

/-- The function of an expression. Its own name is known inside of it. -/
def functionExpression (env : Env) (name : String) (n : Node) : Run Value := do
  match n with
  | .mk (.function _ _ _) _ (.mk (.name own) _ _ :: _) =>
    let inner ← within env [(own, { value := none, constant := true, lenient := true })]
    let f ← makeFunction (closureOf inner .plain n) own
    startName inner own f
    return f
  | _ => makeFunction (closureOf env .plain n) name

/-- A member of an object or a class from its own words on, without `static`. -/
def memberNode (env : Env) (n : Node) : Node :=
  match n with
  | .mk (.method form isConstructor computed modifiers) span cs =>
    let blanks := ((env.source.drop (span.start + "static".length)).takeWhile isGap).length
    let start := if modifiers.isStatic then span.start + "static".length + blanks else span.start
    .mk (.method form isConstructor computed modifiers) { span with start } cs
  | n => n

/-- The text that a node was read from. -/
def sourceText (env : Env) (n : Node) : String :=
  String.ofList ((env.source.drop n.span.start).take (n.span.stop - n.span.start))

/-- Whether a node is a function or a class without a name, which takes that of its place. -/
def isAnonymous (n : Node) : Bool :=
  match n with
  | .mk (.function _ _ _) _ (name :: _) => name.isAbsent
  | .mk (.arrow _) _ _ => true
  | .mk (.classDef _ _) _ (_ :: name :: _) => name.isAbsent
  | _ => false

/-! ## Declaring -/

/-- Binds what statements declare among themselves; functions get their values at once. -/
def declareAmong (env : Env) (ns : List Node) : Run Unit := do
  for (name, constant) in declaredNames ns do
    bind env.scope name { value := none, constant }
  for (name, n) in declaredFunctions ns do
    bind env.scope name { value := some (← declaredFunction env name n) }

/-- Whether statements declare something among themselves. -/
def declares (ns : List Node) : Bool :=
  !(declaredNames ns).isEmpty || !(declaredFunctions ns).isEmpty

/-- Binds what the body of a function declares, in the scope that already has the parameters. -/
def declareInFunction (env : Env) (ns : List Node) : Run Unit := do
  let known := (← scope env.scope).bindings.map (·.1)
  for name in variableNamesAmong ns do
    if !known.contains name then
      bind env.scope name { value := some .undefined }
  declareAmong env ns

end PagePreview.Engine
