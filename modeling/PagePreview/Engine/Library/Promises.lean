import PagePreview.Engine.Library.Basic
import PagePreview.Engine.Pausing

/-!
# Promises of the library

Promises can be made, waited for and gathered. Those that wait for several
others share an array of what has come so far and an object that counts what
is still missing.
-/

namespace PagePreview.Engine.Library

/-! ## Settling and waking -/

/-- The functions that settle a promise. -/
def settlingFunctions : List NativeFunction := [
  ⟨"resolve", 1, fun c => do settleOnce c.held true (c.arg 0); return .undefined⟩,
  ⟨"reject", 1, fun c => do settleOnce c.held false (c.arg 0); return .undefined⟩]

def taskFunctions : List NativeFunction := [
  ⟨"next", 1, fun c => do wakeTask c.held (.next (c.arg 0)); return .undefined⟩,
  ⟨"fail", 1, fun c => do wakeTask c.held (.fail (c.arg 0)); return .undefined⟩]

def streamFunctions : List NativeFunction := [
  ⟨"next", 1, fun c => do wakeStream c.held (.next (c.arg 0)); return .undefined⟩,
  ⟨"fail", 1, fun c => do wakeStream c.held (.fail (c.arg 0)); return .undefined⟩]

/-! ## Making promises -/

def constructPromise (c : NativeCall) : Run Value := do
  if !c.isNew then typeError "Promise NewTarget cannot be undefined"
  let action ← callback (c.arg 0) "Promise executor is not callable"
  let proto ← match c.newTarget with
    | .object t =>
      match ← getNamed t "prototype" with
      | .object p => pure p
      | _ => pure Intrinsic.promiseProto.ref
    | _ => pure Intrinsic.promiseProto.ref
  let p ← newPromise proto
  match ← catching (call action .undefined [p.resolve, p.reject]) with
  | .ok _ => pure ()
  | .error e => let _ ← call p.reject .undefined [e]
  return p.promise

/-- Whether a value is a promise. -/
def promise? (v : Value) : Run (Option Ref) := do
  match v, ← v.body with
  | .object r, .promise _ => return some r
  | _, _ => return none

def thenMethod (c : NativeCall) : Run Value := do
  match ← promise? c.self with
  | some p => thenPromise p (c.arg 0) (c.arg 1)
  | none => typeError "this is not a promise object"

/-- What comes after a promise however it is settled: first the function runs, then its promise is
waited for, then everything goes on as it was. -/
def afterwards (fulfilled : Bool) (c : NativeCall) : Run Value := do
  let result ← call (c.held.headD .undefined) .undefined []
  let p ← promiseOf result
  let name := if fulfilled then "give" else "throw"
  thenPromise p (← nativeFunction "afterwards" name 0 [c.arg 0] "") .undefined

def afterwardsFunctions : List NativeFunction := [
  ⟨"value", 1, afterwards true⟩,
  ⟨"reason", 1, afterwards false⟩,
  ⟨"give", 0, fun c => return c.held.headD .undefined⟩,
  ⟨"throw", 0, fun c => throwValue (c.held.headD .undefined)⟩]

def finallyMethod (c : NativeCall) : Run Value := do
  let f := c.arg 0
  if ← isCallable f then
    let onValue ← nativeFunction "afterwards" "value" 1 [f] ""
    let onReason ← nativeFunction "afterwards" "reason" 1 [f] ""
    invoke c.self "then" [onValue, onReason]
  else invoke c.self "then" [f, f]

def promiseMethods : List NativeFunction := [
  ⟨"then", 2, thenMethod⟩,
  ⟨"catch", 1, fun c => invoke c.self "then" [.undefined, c.arg 0]⟩,
  ⟨"finally", 1, finallyMethod⟩]

/-! ## Gathering promises -/

/-- How the outcome of one promise is kept among those of others. -/
inductive Kept where
  | plain | fulfilled | rejected
deriving DecidableEq

def Kept.name : Kept → String
  | plain => "plain"
  | fulfilled => "fulfilled"
  | rejected => "rejected"

def Kept.shape (k : Kept) (v : Value) : Run Value := do
  let described (status field : String) : Run Value := do
    let r ← plainObject
    defineOwn r (.text "status") (.ofValue (.text status))
    defineOwn r (.text field) (.ofValue v)
    return .object r
  match k with
  | plain => return v
  | fulfilled => described "fulfilled" "value"
  | rejected => described "rejected" "reason"

/-- Keeps an outcome. When it was the last one that was missing, the gathering ends. -/
def keep (k : Kept) (c : NativeCall) : Run Value := do
  match c.held with
  | [.object items, .object count, .number place, finish, .object latch] =>
    if !(← object latch).extensible then return .undefined
    changeObject latch fun o => { o with extensible := false }
    let v ← k.shape (c.arg 0)
    defineOwn items (.ofNat place.toUInt64.toNat) (.ofValue v)
    let left ← toNumber (← getNamed count "left")
    defineOwn count (.text "left") (.ofValue (.number (left - 1)))
    if left == 1 then let _ ← call finish .undefined [.object items]
  | _ => pure ()
  return .undefined

/-- An error that holds the reasons of several promises. -/
def failTogether (c : NativeCall) : Run Value := do
  let e ← makeError Intrinsic.aggregateErrorProto.ref "no promise in Promise.any was fulfilled."
  match e with
  | .object r => defineOwn r (.text "errors") (.quiet (c.arg 0))
  | _ => pure ()
  call (c.held.headD .undefined) .undefined [e]

def gatheringFunctions : List NativeFunction := [
  ⟨"plain", 1, keep .plain⟩,
  ⟨"fulfilled", 1, keep .fulfilled⟩,
  ⟨"rejected", 1, keep .rejected⟩,
  ⟨"fail", 1, failTogether⟩]

/-- Waits for all promises that something gives. What is done with an outcome is said by `onValue`
and `onReason`; nothing there means that it settles the whole at once. -/
def gather (onValue onReason : Option Kept) (c : NativeCall) : Run Value := do
  let all ← newPromise
  let items ← listOf []
  let count ← plainObject
  let put (n : Float) : Run Unit := defineOwn count (.text "left") (.ofValue (.number n))
  put 1
  let finish ← if onValue.isNone then nativeFunction "gathering" "fail" 1 [all.reject] ""
    else pure all.resolve
  let outcome ← catching do
    foldValues (c.arg 0) (fun (i : Nat) v => do
      let left ← toNumber (← getNamed count "left")
      put (left + 1)
      let latch := Value.object (← plainObject)
      let handler (k : Option Kept) (usual : Value) : Run Value := do
        match k with
        | none => return usual
        | some k =>
          nativeFunction "gathering" k.name 1 [items, .object count, numberValue i, finish, latch] ""
      match items with
      | .object r => defineOwn r (.ofNat i) (.ofValue .undefined)
      | _ => pure ()
      let p ← promiseOf v
      let _ ← invoke (.object p) "then" [← handler onValue all.resolve, ← handler onReason all.reject]
      return i + 1) 0
  match outcome with
  | .error e => let _ ← call all.reject .undefined [e]
  | .ok _ =>
    let left ← toNumber (← getNamed count "left")
    put (left - 1)
    if left == 1 && (onValue.isSome || onReason.isSome) then
      let _ ← call finish .undefined [items]
  return all.promise

def promiseStatics : List NativeFunction := [
  ⟨"resolve", 1, fun c => return .object (← promiseOf (c.arg 0))⟩,
  ⟨"reject", 1, fun c => do
    let p ← newPromise
    let _ ← call p.reject .undefined [c.arg 0]
    return p.promise⟩,
  ⟨"all", 1, gather (some .plain) none⟩,
  ⟨"allSettled", 1, gather (some .fulfilled) (some .rejected)⟩,
  ⟨"race", 1, gather none none⟩,
  ⟨"any", 1, gather none (some .plain)⟩,
  ⟨"try", 1, fun c => do
    let p ← newPromise
    match ← catching (call (c.arg 0) .undefined (c.arguments.drop 1)) with
    | .ok v => let _ ← call p.resolve .undefined [v]
    | .error e => let _ ← call p.reject .undefined [e]
    return p.promise⟩,
  ⟨"withResolvers", 0, fun _ => do
    let p ← newPromise
    let r ← plainObject
    defineOwn r (.text "promise") (.ofValue p.promise)
    defineOwn r (.text "resolve") (.ofValue p.resolve)
    defineOwn r (.text "reject") (.ofValue p.reject)
    return .object r⟩]

/-! ## Generators -/

def generatorMethods : List NativeFunction := [
  ⟨"next", 1, fun c => resumeGenerator c.self (.next (c.arg 0))⟩,
  ⟨"return", 1, fun c => resumeGenerator c.self (.finish (c.arg 0))⟩,
  ⟨"throw", 1, fun c => resumeGenerator c.self (.fail (c.arg 0))⟩]

def streamMethods : List NativeFunction := [
  ⟨"next", 1, fun c => requestFrom c.self (.next (c.arg 0))⟩,
  ⟨"return", 1, fun c => requestFrom c.self (.finish (c.arg 0))⟩,
  ⟨"throw", 1, fun c => requestFrom c.self (.fail (c.arg 0))⟩]

end PagePreview.Engine.Library
