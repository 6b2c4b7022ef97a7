import PagePreview.Engine.Function
import PagePreview.Engine.Iteration

/-!
# Patterns and targets

A value is taken apart by a pattern. Its parts are bound to names, or they
are assigned to whatever can be assigned to; `put` says which.
-/

namespace PagePreview.Engine

open Script

/-- The value of an expression, which may be a function that takes a name. -/
def evaluateNamed (env : Env) (name : String) (n : Node) : Run Value := do
  if isAnonymous n then
    match n with
    | .mk (.function _ _ _) _ _ => functionExpression env name n
    | .mk (.arrow _) _ _ => makeFunction (closureOf env .arrow n) name
    | _ =>
      let inner ← within env [("*name", { value := some (.text name) })]
      evaluate inner n
  else evaluate env n

/-- The key that a property is named by. -/
def evaluateKey (env : Env) (computed : Bool) (n : Node) : Run Key := do
  if computed then toKey (← evaluate env n)
  else match n.kind with
    | .name s | .string s _ => return .text s
    | .number t => return .text (numberText (Numeral.value t))
    | .bigint t => return .text (String.ofList (t.toList.filter fun c => c != 'n' && c != '_'))
    | .privateName s => privateKey env s
    | _ => toKey (← evaluate env n)

/-- The key behind a point. -/
def memberKey (env : Env) (n : Node) : Run Key := evaluateKey env false n

/-- How a name gets a value. -/
abbrev Put := Env → String → Value → Run Unit

/-- A name that has been bound before gets its first value. -/
def Put.declare : Put := startName

def Put.assign : Put := setName

/-- Sets a private field. -/
def setHidden (r : Ref) (k : Key) (v : Value) : Run Unit := do
  match ← getOwn r k with
  | some ⟨.data _ true, _, _⟩ => changeObject r (·.store k (.quiet v))
  | some ⟨.accessor _ set, _, _⟩ =>
    if !(← isCallable set) then typeError "private accessor was defined without a setter"
    let _ ← call set (.object r) [v]
  | some _ => typeError "cannot assign to private method"
  | none => typeError "object does not have private element"

/-- Reads a private field. -/
def getHidden (v : Value) (k : Key) : Run Value := do
  match v with
  | .object r =>
    match ← getOwn r k with
    | some p => p.read v
    | none => typeError "private element not found on object"
  | _ => typeError "private element not found on object"

/-- Assigns to a property of a value. -/
def assignProperty (env : Env) (base : Value) (k : Key) (v : Value) : Run Unit := do
  match k, base with
  | .hidden _, .object r => setHidden r k v
  | .hidden _, _ => typeError "object does not have private element"
  | _, .object r => setProperty env.strict r k v
  | _, _ =>
    let r ← toObject base
    let done ← setFrom r k v base
    if !done && env.strict then
      typeError ("cannot set non-writable property: " ++ (← k.shown))

/-- The object that `super` reads its properties from. -/
def superObject (env : Env) : Run Ref := do
  match (← callInfo env).home with
  | some home =>
    match (← object home).proto with
    | some proto => return proto
    | none => typeError "cannot convert 'null' or 'undefined' to object"
  | none => syntaxError "'super' keyword unexpected here"

/-- Refuses values that have no properties. -/
def requireObject (v : Value) : Run Unit := do
  match v with
  | .undefined => typeError "Cannot destructure 'undefined' value"
  | .null => typeError "Cannot destructure 'null' value"
  | _ => return ()

/-- The values that are left of an iteration. -/
def Iteration.rest (it : Iteration) : (bound : Nat) → Array (Option Value) →
    Run (Array (Option Value))
  | 0, _ => throw .tooDeep
  | bound + 1, seen => do
    match ← it.step with
    | some v => it.rest bound (seen.push (some v))
    | none => return seen

mutual

/-- Puts a value where a pattern or a target says. -/
def assignTo (put : Put) (env : Env) : Node → Value → Run Unit
  | .mk (.name s) _ _, v => put env s v
  | .mk (.member _) _ [o, k], v => do
    match o.kind with
    | .superclass =>
      let _ ← superObject env
      assignProperty env (← selfOf env) (← memberKey env k) v
    | _ => assignProperty env (← evaluate env o) (← memberKey env k) v
  | .mk (.index _) _ [o, k], v => do
    let base ← match o.kind with
      | .superclass => selfOf env
      | _ => evaluate env o
    let k ← toKey (← evaluate env k)
    assignProperty env base k v
  | .mk .paren _ [p], v => assignTo put env p v
  | .mk (.typed _ _) _ [p, _], v => assignTo put env p v
  | .mk .nonNull _ [p], v => assignTo put env p v
  | .mk .asType _ [p, _], v => assignTo put env p v
  | .mk .satisfiesType _ [p, _], v => assignTo put env p v
  | .mk (.parameter _) _ [_, p], v => assignTo put env p v
  | .mk .withDefault _ [p, e], v => do
    match v with
    | .undefined => assignTo put env p (← evaluateNamed env (p.name?.getD "") e)
    | v => assignTo put env p v
  | .mk .objectPattern _ ps, v => do requireObject v; assignProperties put env [] ps v
  | .mk .objectTarget _ ps, v => do requireObject v; assignProperties put env [] ps v
  | .mk .arrayPattern _ ps, v => do assignItems put env ps (← iterationOf v) false
  | .mk .arrayTarget _ ps, v => do assignItems put env ps (← iterationOf v) false
  | _, _ => syntaxError "invalid assignment target"

def assignProperties (put : Put) (env : Env) (seen : List Key) : List Node → Value → Run Unit
  | [], _ => return ()
  | .mk .rest _ [p] :: _, v => do
    let r ← toObject v
    let copy ← plainObject
    for k in ← ownKeys r do
      if !seen.contains k then
        match ← getOwn r k with
        | some own => if own.enumerable then defineOwn copy k (.ofValue (← getProperty r k))
        | none => pure ()
    assignTo put env p (.object copy)
  | .mk (.propertyPattern computed _) _ [key, p] :: ps, v => do
    let k ← evaluateKey env computed key
    assignTo put env p (← getOf v k)
    assignProperties put env (k :: seen) ps v
  | _ :: ps, v => assignProperties put env seen ps v

/-- Puts the values of an iteration where the items of a pattern say; `done` is whether there are
no more values. -/
def assignItems (put : Put) (env : Env) : List Node → Iteration → (done : Bool) → Run Unit
  | [], it, done => if done then return () else it.close
  | .mk .rest _ [p] :: _, it, done => do
    let rest ← if done then pure #[] else it.rest (Nat.pow 2 40) #[]
    assignTo put env p (← arrayOf rest)
  | p :: ps, it, done => do
    let (v, done) ← if done then pure (Value.undefined, true) else do
      match ← it.step with
      | some v => pure (v, false)
      | none => pure (.undefined, true)
    if p.isAbsent then assignItems put env ps it done
    else
      if done then assignTo put env p v else it.guard (assignTo put env p v)
      assignItems put env ps it done

end

end PagePreview.Engine
