import PagePreview.Engine.Expression
import PagePreview.Script.Literal

/-!
# Statements

How a statement ends is a `Completion`. Loops and statements with labels take
notice of the ones that leave them; everything else hands them on.
-/

namespace PagePreview.Engine

open Script

/-! ## Declarations -/

/-- Declares variables and gives them their values. -/
def runVariables (env : Env) (kind : VariableKind) (declarators : List Node) : Run Unit := do
  let put : Put := if kind == .var then Put.assign else Put.declare
  for d in declarators do
    match d with
    | .mk .declarator _ [p, e] =>
      if e.isAbsent then
        if kind != .var then assignTo put env p .undefined
      else assignTo put env p (← evaluateNamed env (targetName p) e)
    | _ => pure ()

def runClass (env : Env) (n : Node) : Run Unit := do
  match n with
  | .mk (.classDef _ _) _ (_ :: .mk (.name s) _ _ :: _) => startName env s (← makeClass env s n)
  | _ => return ()

/-! ## Loops -/

/-- What the body of a loop has come to: the loop goes on with a value, or it ends. -/
def afterBody (labels : List String) (c : Completion) (v : Option Value) :
    Option Value ⊕ Completion :=
  match c.orValue v with
  | .normal v => .inl v
  | .next none v => .inl v
  | .next (some l) v => if labels.contains l then .inl v else .inr (.next (some l) v)
  | .leave none v => .inr (.normal v)
  | c => .inr c

/-- The value of a statement that always has one. -/
def Completion.withValue (c : Completion) : Completion := c.orValue (some .undefined)

def runWhile (env : Env) (labels : List String) (test body : Node) : Run Completion :=
  iterate (fun v => do
    if (← evaluate env test).truth then return afterBody labels (← execute env body) v
    else return .inr (.normal v)) none

def runDo (env : Env) (labels : List String) (body test : Node) : Run Completion :=
  iterate (fun v => do
    match afterBody labels (← execute env body) v with
    | .inl v => if (← evaluate env test).truth then return .inl v else return .inr (.normal v)
    | .inr c => return .inr c) none

/-- A new scope with the names and values of the one of `env`. -/
def copyScope (env : Env) : Run Env := do
  return { env with scope := ← enclose (← scope env.scope) }

def runFor (env : Env) (labels : List String) (init test step body : Node) : Run Completion := do
  let (env, renewed) ← match init with
    | .mk (.variables .var _) _ ds => do runVariables env .var ds; pure (env, false)
    | .mk (.variables kind _) _ ds => do
      let bindings := (boundNamesAmong ds).map fun s =>
        (s, ({ value := none, constant := kind != .let } : Binding))
      let inner ← within env bindings
      runVariables inner kind ds
      pure (inner, kind == .let)
    | .mk .absent _ _ => pure (env, false)
    | e => do
      let _ ← evaluate env e
      pure (env, false)
  let renew (env : Env) : Run Env := if renewed then copyScope env else return env
  iterate (fun ((env, v) : Env × Option Value) => do
    let goes ← if test.isAbsent then pure true else pure (← evaluate env test).truth
    if !goes then return .inr (.normal v)
    match afterBody labels (← execute env body) v with
    | .inr c => return .inr c
    | .inl v =>
      let env ← renew env
      if !step.isAbsent then let _ ← evaluate env step
      return .inl (env, v)) (← renew env, none)

/-- Binds or assigns what a loop over values gets in a round; the place of the body. -/
def bindRound (env : Env) (target : Node) (v : Value) : Run Env := do
  match target with
  | .mk (.variables .var _) _ [.mk .declarator _ [p, _]] =>
    assignTo Put.assign env p v
    return env
  | .mk (.variables kind _) _ [.mk .declarator _ [p, _]] =>
    let inner ← within env ((boundNames p).map fun s =>
      (s, ({ value := none, constant := kind != .let } : Binding)))
    assignTo Put.declare inner p v
    return inner
  | t =>
    assignTo Put.assign env t v
    return env

/-- The place of the expression that a loop goes over, where its own names have no values yet. -/
def outerRound (env : Env) (target : Node) : Run Env := do
  match target with
  | .mk (.variables .var _) _ _ => return env
  | .mk (.variables _ _) _ ds =>
    within env ((boundNamesAmong ds).map fun s => (s, ({ value := none } : Binding)))
  | _ => return env

/-- The listed keys of an object and of its prototypes, each once. -/
def keysAlong : (bound : Nat) → Ref → (seen : List Key) → Run (List (Ref × String))
  | 0, _, _ => throw .tooDeep
  | bound + 1, r, seen => do
    let keys ← ownKeys r
    let mine ← keys.filterMapM fun k => do
      match k with
      | .text s =>
        if seen.contains k then return none
        match ← getOwn r k with
        | some p => return if p.enumerable then some (r, s) else none
        | none => return none
      | _ => return none
    match (← object r).proto with
    | some proto => return mine ++ (← keysAlong bound proto (keys ++ seen))
    | none => return mine

def runForIn (env : Env) (labels : List String) (target e body : Node) : Run Completion := do
  match ← evaluate (← outerRound env target) e with
  | .undefined | .null => return .normal none
  | v =>
    let keys ← keysAlong maxProtos (← toObject v) []
    iterate (fun ((keys, v) : List (Ref × String) × Option Value) => do
      match keys with
      | [] => return .inr (.normal v)
      | (r, s) :: keys =>
        if !(← hasOwn r (.text s)) then return .inl (keys, v)
        let inner ← bindRound env target (.text s)
        match afterBody labels (← execute inner body) v with
        | .inl v => return .inl (keys, v)
        | .inr c => return .inr c) (keys, none)

def runForOf (env : Env) (labels : List String) (waits : Bool) (target e body : Node) :
    Run Completion := do
  let v ← evaluate (← outerRound env target) e
  let (it, ordinary) ← if waits then streamOf v else pure (← iterationOf v, true)
  let close : Run Unit := do
    match it.iterator with
    | .object r =>
      match ← methodOf r (.text "return") with
      | some f =>
        let result ← call f it.iterator []
        if waits then let _ ← awaitValue result
      | none => pure ()
    | _ => pure ()
  iterate (fun v => do
    match ← if waits then it.stepAwaited ordinary else it.step with
    | none => return .inr (.normal v)
    | some x =>
      let round : Run Completion := do execute (← bindRound env target x) body
      let c ← round.orElse fun s => do
        match s with
        | .tooDeep => throw .tooDeep
        | .finished _ => close
        | .thrown _ => let _ ← catching close
        throw s
      match afterBody labels c v with
      | .inl v => return .inl v
      | .inr c => close; return .inr c) none

/-! ## Branches -/

/-- Runs the statements of cases one after the other. -/
def runCases (env : Env) : List Node → Option Value → Run Completion
  | [], v => return .normal v
  | .mk _ _ (_ :: ns) :: cases, v => do
    match ← runStatements env ns v with
    | .normal v => runCases env cases v
    | c => return c
  | _ :: cases, v => runCases env cases v

/-- The cases from the first one on whose test gives the value. -/
def matchingCases (env : Env) (v : Value) : List Node → Run (Option (List Node))
  | [] => return none
  | n :: cases => do
    let test := n.child 0
    if test.isAbsent then matchingCases env v cases
    else if (← evaluate env test).isSame v then return some (n :: cases)
    else matchingCases env v cases

def runSwitch (env : Env) (subject : Node) (cases : List Node) : Run Completion := do
  let v ← evaluate env subject
  let ns := cases.flatMap fun c => c.children.drop 1
  let env ← within env []
  declareAmong env ns
  let chosen := (← matchingCases env v cases).getD
    (cases.dropWhile fun c => !(c.child 0).isAbsent)
  match ← runCases env chosen none with
  | .leave none v => return .normal v
  | c => return c

/-! ## Handlers -/

def runHandler (env : Env) (e : Value) (n : Node) : Run Completion := do
  match n with
  | .mk .handler _ [p, body] =>
    if p.isAbsent then execute env body
    else
      let inner ← within env ((boundNames p).map fun s => (s, ({ value := none } : Binding)))
      assignTo Put.declare inner p e
      execute inner body
  | _ => throwValue e

def runTry (env : Env) (body handler final : Node) : Run Completion := do
  let attempt : Run Completion := do
    match ← catching (execute env body) with
    | .ok c => return c
    | .error e => runHandler env e handler
  if final.isAbsent then attempt
  else
    let outcome ← Run.orElse (do return Except.ok (← attempt)) fun s => return .error s
    match outcome with
    | .error .tooDeep => throw .tooDeep
    | outcome =>
      match ← execute env final with
      | .normal _ =>
        match outcome with
        | .ok c => return c
        | .error s => throw s
      | c => return c

/-! ## All statements -/

/-- The text that a directive is. -/
def directiveText (raw : String) : String :=
  match Literal.cook? true raw.toList with
  | some units => (Literal.ofUnits units).1
  | none => raw

def executeNode (env : Env) (labels : List String) (n : Node) : Run Completion := do
  match n with
  | .mk .expression _ [e] => return .normal (some (← evaluate env e))
  | .mk (.directive raw) _ _ => return .normal (some (.text (directiveText raw)))
  | .mk (.variables kind _) _ ds =>
    runVariables env kind ds
    return .normal none
  | .mk (.classDef _ _) _ _ =>
    runClass env n
    return .normal none
  | .mk .block _ ns => runBlock env ns
  | .mk .ifThen _ [test, yes, no] =>
    let c ← if (← evaluate env test).truth then execute env yes
      else if no.isAbsent then pure (.normal none) else execute env no
    return c.withValue
  | .mk .whileLoop _ [test, body] => return (← runWhile env labels test body).withValue
  | .mk .doWhile _ [body, test] => return (← runDo env labels body test).withValue
  | .mk .forLoop _ [init, test, step, body] =>
    return (← runFor env labels init test step body).withValue
  | .mk .forIn _ [target, e, body] => return (← runForIn env labels target e body).withValue
  | .mk (.forOf waits) _ [target, e, body] =>
    return (← runForOf env labels waits target e body).withValue
  | .mk (.continueLoop label) _ _ => return .next label none
  | .mk (.breakOut label) _ _ => return .leave label none
  | .mk .returnValue _ [e] =>
    if e.isAbsent then return .give .undefined
    return .give (← evaluate env e)
  | .mk .withObject _ [o, body] =>
    let r ← toObject (← evaluate env o)
    let inner := { env with scope := ← enclose { parent := some env.scope, object := some r } }
    return (← execute inner body).withValue
  | .mk .switch _ [subject, .mk .group _ cases] =>
    return (← runSwitch env subject cases).withValue
  | .mk (.labeled label) _ [body] =>
    match ← execute env body (label :: labels) with
    | .leave (some l) v => return if l == label then .normal v else .leave (some l) v
    | c => return c
  | .mk .throwValue _ [e] => throwValue (← evaluate env e)
  | .mk .tryCatch _ [body, handler, final] =>
    return (← runTry env body handler final).withValue
  | .mk .exportDeclaration _ [d] => execute env d
  | .mk .exportDefault _ [d] =>
    match d with
    | .mk (.function _ .declaration _) _ (name :: _) =>
      if name.isAbsent then startName env "*default*" (← functionExpression env "default" d)
    | .mk (.classDef .declaration _) _ (_ :: name :: _) =>
      if name.isAbsent then startName env "*default*" (← evaluateNamed env "default" d)
      else runClass env d
    | e => startName env "*default*" (← evaluateNamed env "default" e)
    return .normal none
  | _ => return .normal none

end PagePreview.Engine
