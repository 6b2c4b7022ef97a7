import PagePreview.Engine.Convert

/-!
# Going through values

What can be gone through has a method that makes an iterator; an iterator has
a method that gives one value after the other. Arrays are gone through by
their items.
-/

namespace PagePreview.Engine

open Text

/-- Something that is being gone through. -/
structure Iteration where
  iterator : Value
  next : Value

/-- Begins to go through a value. -/
def iterationOf (v : Value) : Run Iteration := do
  let f ← getOf v WellKnown.iterator.key
  if !(← isCallable f) then
    typeError ("value with type `" ++ (← typeOf v) ++ "` is not iterable")
  match ← call f v [] with
  | .object r => return ⟨.object r, ← getNamed r "next"⟩
  | _ => typeError "returned iterator is not an object"

/-- The next value, unless there is none. -/
def Iteration.step (it : Iteration) : Run (Option Value) := do
  match ← call it.next it.iterator [] with
  | .object r =>
    if (← getNamed r "done").truth then return none
    return some (← getNamed r "value")
  | _ => typeError "next value should be an object"

/-- Ends going through values before the last one. -/
def Iteration.close (it : Iteration) : Run Unit := do
  match it.iterator with
  | .object r =>
    match ← methodOf r (.text "return") with
    | some f => let _ ← call f it.iterator []
    | none => pure ()
  | _ => pure ()

/-- Runs an action that ends the iteration if it throws. -/
def Iteration.guard {α : Type} (it : Iteration) (action : Run α) : Run α := do
  match ← catching action with
  | .ok a => return a
  | .error e =>
    let _ ← catching it.close
    throwValue e

/-- Goes through the items of an array from some place on, as long as there are any. -/
def eachItem {α : Type} (r : Ref) (action : α → Value → Run α) (start : α) : Run α := do
  let rec go (bound : Nat) (i : Nat) (a : α) : Run α := do
    match bound with
    | 0 => throw .tooDeep
    | bound + 1 =>
      match ← bodyOf r with
      | .array items =>
        if i < items.size then
          let v ← match items[i]?.join with
            | some v => pure v
            | none => getProperty r (Key.ofNat i)
          go bound (i + 1) (← action a v)
        else return a
      | _ => return a
  go (Nat.pow 2 40) 0 start

/-- Goes through all values, and hands on something from one to the next. -/
def foldValues {α : Type} (v : Value) (action : α → Value → Run α) (start : α) : Run α := do
  match v, ← v.body with
  | .object r, .array _ => eachItem r action start
  | _, _ =>
    let it ← iterationOf v
    let rec go (bound : Nat) (a : α) : Run α := do
      match bound with
      | 0 => throw .tooDeep
      | bound + 1 =>
        match ← it.step with
        | none => return a
        | some x => go bound (← it.guard (action a x))
    go (Nat.pow 2 40) start

/-- All values that something gives when it is gone through. -/
def valuesOf (v : Value) : Run (List Value) := do
  return (← foldValues v (fun (seen : Array Value) x => return seen.push x) #[]).toList

/-- The values of something that has a length and numbered properties. -/
def itemsOf (v : Value) : Run (List Value) := do
  match v, ← v.body with
  | .object r, .array items =>
    if items.all Option.isSome then return items.toList.map (·.getD .undefined)
    (List.range items.size).mapM fun i => getProperty r (Key.ofNat i)
  | .object r, _ =>
    let n ← toLength (← getNamed r "length")
    (List.range n).mapM fun i => getProperty r (Key.ofNat i)
  | _, _ => typeError "cannot create list from non-object"

/-- What an iterator gives: a value, and whether it is done. -/
def iterationResult (v : Value) (done : Bool) : Run Value := do
  return .object (← allocate {
    proto := some Intrinsic.objectProto.ref
    properties := #[(.text "value", .ofValue v), (.text "done", .ofValue (.boolean done))] })

/-- An iterator of the library. -/
def cursorOver (proto : Intrinsic) (target : Value) (form : String) : Run Value :=
  return .object (← allocate { body := .cursor target 0 form, proto := some proto.ref })

/-- What a cursor gives at a place, and the place behind it. -/
def cursorAt (target : Value) (position : Nat) (form : String) : Run (Option (Value × Nat)) := do
  let shaped (key value : Value) : Run Value := match form with
    | "keys" => return key
    | "values" => return value
    | _ => listOf [key, value]
  match target, ← target.body with
  | .text s, _ =>
    match s.toList[position]? with
    | some c => return some (.text (String.ofList [c]), position + 1)
    | none => return none
  | _, .map entries | _, .set entries =>
    let rest := (entries.toList.drop position).takeWhile Option.isNone
    let place := position + rest.length
    match entries[place]?.join with
    | some (k, v) => return some (← shaped k v, place + 1)
    | none => return none
  | .object r, _ =>
    let n ← toLength (← getNamed r "length")
    if position < n then
      let v ← if form == "keys" then pure .undefined else getProperty r (Key.ofNat position)
      return some (← shaped (.number (Float.ofNat position)) v, position + 1)
    else return none
  | _, _ => return none

/-- The step of a cursor. Once it has come to its end it stays there. -/
def cursorNext (self : Value) : Run Value := do
  match self, ← self.body with
  | .object r, .cursor target position form =>
    match ← cursorAt target position form with
    | some (v, place) =>
      changeBody r fun _ => .cursor target place form
      iterationResult v false
    | none =>
      changeBody r fun _ => .cursor .undefined 0 form
      iterationResult .undefined true
  | _, _ => typeError "`this` is not an iterator"

end PagePreview.Engine
