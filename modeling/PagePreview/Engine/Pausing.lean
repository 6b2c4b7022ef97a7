import PagePreview.Engine.Iteration
import PagePreview.Engine.Promise

/-!
# Generators and asynchronous functions

What is left of a function that pauses is put aside. An asynchronous function
is woken when the promise that it waits for is settled; a generator is woken
by whoever wants its next value. A generator whose values are waited for does
both, so those who want values stand in a queue.
-/

namespace PagePreview.Engine

/-- The functions that wake work when a promise is settled. -/
def wakers (owner : String) (held : List Value) : Run Reaction := do
  let onFulfilled ← nativeFunction owner "next" 1 held ""
  let onRejected ← nativeFunction owner "fail" 1 held ""
  return { onFulfilled, onRejected, resolve := .undefined, reject := .undefined }

/-- The number of work, as a value that a function can hold. -/
def workValue (work : Nat) : Value := .number (Float.ofNat work)

def workOf : Value → Nat
  | .number x => x.toUInt64.toNat
  | _ => 0

/-! ## Asynchronous functions -/

/-- Lets an asynchronous function go on, up to the next promise that it waits for or to its
end. -/
def continueTask (work : Nat) (resolve reject : Value) (s : Signal) : Run Unit := do
  match ← wake work s with
  | .gave v | .stopped (.finished v) => let _ ← call resolve .undefined [v]
  | .stopped (.thrown e) => let _ ← call reject .undefined [e]
  | .stopped .tooDeep => throw .tooDeep
  | .paused (.await v) | .paused (.yield v) =>
    react (← promiseOf v) (← wakers "task" [workValue work, resolve, reject])

/-- Runs an action that may wait; the promise for what it gives. -/
def runTask (action : Run Value) : Run Value := do
  let c ← newPromise
  let work ← park fun
    | .next _ => action
    | s => obey s
  continueTask work c.resolve c.reject (.next .undefined)
  return c.promise

/-- What happens when the promise is settled that an asynchronous function waits for. -/
def wakeTask (held : List Value) (s : Signal) : Run Unit := do
  match held with
  | [work, resolve, reject] => continueTask (workOf work) resolve reject s
  | _ => return ()

/-! ## Generators -/

/-- Work that waits for its first signal. -/
def parkBody (action : Run Value) : Run Nat :=
  park fun
    | .next _ => action
    | s => obey s

def makeGenerator (proto : Ref) (action : Run Value) : Run Value := do
  let work ← parkBody action
  return .object (← allocate { body := .generator work .waiting, proto := some proto })

/-- Lets a generator go on to its next value. -/
def resumeGenerator (self : Value) (s : Signal) : Run Value := do
  match self, ← self.body with
  | .object r, .generator work progress =>
    let become (p : Progress) : Run Unit := changeBody r fun _ => .generator work p
    match progress, s with
    | .running, _ => typeError "Generator is already executing"
    | .done, .next _ => iterationResult .undefined true
    | .done, .fail e => throwValue e
    | .done, .finish v => iterationResult v true
    | .waiting, s =>
      become .running
      match ← wake work s with
      | .paused (.yield v) | .paused (.await v) => become .waiting; iterationResult v false
      | .gave v | .stopped (.finished v) => become .done; iterationResult v true
      | .stopped e => become .done; throw e
  | _, _ => typeError "generator resumed on non generator object"

/-- Hands on the values of something else, and what this generator is told. -/
def delegate (v : Value) : Run Value := do
  let it ← iterationOf v
  let told (s : Signal) : Run (Value × Bool) := do
    match it.iterator, s with
    | _, .next v => return (← call it.next it.iterator [v], false)
    | .object r, .fail e =>
      match ← methodOf r (.text "throw") with
      | some f => return (← call f it.iterator [e], false)
      | none => it.close; typeError "iterator does not have a throw method"
    | .object r, .finish v =>
      match ← methodOf r (.text "return") with
      | some f => return (← call f it.iterator [v], true)
      | none => throw (.finished v)
    | _, _ => return (.undefined, false)
  let step (s : Signal) : Run (Signal ⊕ Value) := do
    match ← told s with
    | (.object r, finishes) =>
      if (← getNamed r "done").truth then
        let v ← getNamed r "value"
        if finishes then throw (.finished v)
        return .inr v
      else return .inl (← pauseRaw (.yield (← getNamed r "value")))
    | _ => typeError "iterator result is not an object"
  iterate step (.next .undefined)

/-! ## Generators whose values are waited for -/

/-- Takes the first request of a queue away and answers it. -/
def answer (r : Ref) (outcome : Except Value (Value × Bool)) : Run Unit := do
  match ← bodyOf r with
  | .stream work p (q :: qs) =>
    changeBody r fun _ => .stream work p qs
    match outcome with
    | .ok (v, done) => let _ ← call q.resolve .undefined [← iterationResult v done]
    | .error e => let _ ← call q.reject .undefined [e]
  | _ => return ()

/-- Lets a stream go on; whether the next request can be seen to. -/
def continueStream (r : Ref) (s : Signal) : Run Bool := do
  match ← bodyOf r with
  | .stream work _ _ =>
    let become (p : Progress) : Run Unit := changeBody r fun
      | .stream work _ requests => .stream work p requests
      | b => b
    become .running
    match ← wake work s with
    | .paused (.await v) =>
      react (← promiseOf v) (← wakers "stream" [.object r])
      return false
    | .paused (.yield v) => become .waiting; answer r (.ok (v, false)); return true
    | .gave v | .stopped (.finished v) => become .done; answer r (.ok (v, true)); return true
    | .stopped (.thrown e) => become .done; answer r (.error e); return true
    | .stopped .tooDeep => throw .tooDeep
  | _ => return false

/-- Sees to the requests of a stream as long as it need not wait. -/
def serveStream (r : Ref) : Run Unit :=
  iterate (fun () => do
    match ← bodyOf r with
    | .stream _ .done (q :: _) =>
      answer r <| match q.signal with
        | .next _ => .ok (.undefined, true)
        | .fail e => .error e
        | .finish v => .ok (v, true)
      return .inl ()
    | .stream _ .waiting (q :: _) => return if ← continueStream r q.signal then .inl () else .inr ()
    | _ => return .inr ()) ()

/-- Asks a stream for its next value. -/
def requestFrom (self : Value) (signal : Signal) : Run Value := do
  let c ← newPromise
  match self, ← self.body with
  | .object r, .stream .. =>
    changeBody r fun
      | .stream work p requests =>
        .stream work p (requests ++ [{ signal, resolve := c.resolve, reject := c.reject }])
      | b => b
    serveStream r
  | _, _ =>
    let e ← makeError Intrinsic.typeErrorProto.ref
      "async generator resumed on non-async-generator object"
    let _ ← call c.reject .undefined [e]
  return c.promise

/-- What happens when the promise is settled that a stream waits for. -/
def wakeStream (held : List Value) (s : Signal) : Run Unit := do
  match held with
  | [.object r] => if ← continueStream r s then serveStream r
  | _ => return ()

def makeStream (proto : Ref) (action : Run Value) : Run Value := do
  let work ← parkBody action
  return .object (← allocate { body := .stream work .waiting [], proto := some proto })

/-- Goes through values that are waited for. -/
def streamOf (v : Value) : Run (Iteration × Bool) := do
  let f ← getOf v WellKnown.asyncIterator.key
  if f.isNullish then return (← iterationOf v, true)
  match ← call f v [] with
  | .object r => return (⟨.object r, ← getNamed r "next"⟩, false)
  | _ => typeError "returned iterator is not an object"

/-- The next value that is waited for; those of an ordinary iterator may be promises. -/
def Iteration.stepAwaited (it : Iteration) (ordinary : Bool) : Run (Option Value) := do
  let result ← call it.next it.iterator []
  match ← if ordinary then pure result else awaitValue result with
  | .object r =>
    if (← getNamed r "done").truth then return none
    let v ← getNamed r "value"
    return some (← if ordinary then awaitValue v else pure v)
  | _ => typeError "next value should be an object"

end PagePreview.Engine
