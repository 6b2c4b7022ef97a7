import PagePreview.Engine.Property

/-!
# Promises

A promise is settled once, by one of two functions that are made with it.
What is to be done then waits as a job until the script that runs has come to
its end.
-/

namespace PagePreview.Engine

/-- A promise that is not settled, and the functions that settle it. -/
structure Capability where
  promise : Value
  resolve : Value
  reject : Value

/-- The functions that settle a promise; together they do so only once. -/
def settlers (promise : Value) : Run (Value × Value) := do
  let latch := Value.object (← plainObject)
  let resolve ← nativeFunction "promise" "resolve" 1 [promise, latch] ""
  let reject ← nativeFunction "promise" "reject" 1 [promise, latch] ""
  return (resolve, reject)

def newPromise (proto : Ref := Intrinsic.promiseProto.ref) : Run Capability := do
  let promise := Value.object (← allocate { body := .promise (.pending []), proto := some proto })
  let (resolve, reject) ← settlers promise
  return { promise, resolve, reject }

/-- Settles a promise and lets the reactions to it wait for their turn. -/
def settle (promise : Ref) (fulfilled : Bool) (value : Value) : Run Unit := do
  match ← bodyOf promise with
  | .promise (.pending reactions) =>
    changeBody promise fun _ => .promise (if fulfilled then .fulfilled value else .rejected value)
    for r in reactions.reverse do enqueue (.react r fulfilled value)
  | _ => return ()

/-- Resolves a promise with a value, which may be a promise itself. -/
def resolvePromise (promise : Ref) (v : Value) : Run Unit := do
  match v with
  | .object r =>
    if r == promise then
      settle promise false (← makeError Intrinsic.typeErrorProto.ref
        "cannot resolve promise with a promise that resolves to itself")
    else
      match ← catching (getNamed r "then") with
      | .error e => settle promise false e
      | .ok action =>
        if ← isCallable action then enqueue (.adopt (.object promise) v action)
        else settle promise true v
  | v => settle promise true v

/-- What one of the functions that settle a promise does, if it is the first to be called. -/
def settleOnce (held : List Value) (fulfilled : Bool) (v : Value) : Run Unit := do
  match held with
  | [.object promise, .object latch] =>
    if (← object latch).extensible then
      changeObject latch fun o => { o with extensible := false }
      if fulfilled then resolvePromise promise v else settle promise false v
  | _ => return ()

/-- Adds a reaction to a promise. -/
def react (promise : Ref) (r : Reaction) : Run Unit := do
  match ← bodyOf promise with
  | .promise (.pending rs) => changeBody promise fun _ => .promise (.pending (r :: rs))
  | .promise (.fulfilled v) => enqueue (.react r true v)
  | .promise (.rejected v) => enqueue (.react r false v)
  | _ => return ()

/-- A promise for what comes of a promise, with handlers for either outcome. -/
def thenPromise (promise : Ref) (onFulfilled onRejected : Value) : Run Value := do
  let c ← newPromise
  react promise { onFulfilled, onRejected, resolve := c.resolve, reject := c.reject }
  return c.promise

/-- The promise that a value is, or one that it fulfils. -/
def promiseOf (v : Value) : Run Ref := do
  match v, ← v.body with
  | .object r, .promise _ => return r
  | _, _ =>
    let c ← newPromise
    let _ ← call c.resolve .undefined [v]
    match c.promise with
    | .object r => return r
    | _ => return 0

/-- Runs a reaction: its handler says what the promise made from it is resolved with. -/
def runReaction (r : Reaction) (fulfilled : Bool) (v : Value) : Run Unit := do
  let handler := if fulfilled then r.onFulfilled else r.onRejected
  let outcome : Except Value Value ←
    if ← isCallable handler then catching (call handler .undefined [v])
    else pure (if fulfilled then .ok v else .error v)
  let settler := match outcome with
    | .ok _ => r.resolve
    | .error _ => r.reject
  if ← isCallable settler then
    let _ ← call settler .undefined [match outcome with | .ok v => v | .error e => e]

/-- Lets the `then` of a value settle a promise. -/
def adopt (promise thenable action : Value) : Run Unit := do
  let (resolve, reject) ← settlers promise
  match ← catching (call action thenable [resolve, reject]) with
  | .ok _ => return ()
  | .error e =>
    let _ ← call reject .undefined [e]

end PagePreview.Engine
