import PagePreview.Engine.Iteration
import PagePreview.Engine.Library.Basic

/-!
# Maps and sets of the library

Entries stand in the order in which their keys were first put in. The place of
an entry that has been taken away stays empty, so whoever is going through the
entries does not lose count.
-/

namespace PagePreview.Engine.Library

abbrev Entries := Array (Option (Value × Value))

namespace Entries

def place? (es : Entries) (k : Value) : Option Nat :=
  es.findIdx? fun e => e.any fun (k', _) => k'.isSameOrNaN k

def lookup? (es : Entries) (k : Value) : Option Value :=
  ((es.place? k).bind fun i => es[i]?.join).map (·.2)

def put (es : Entries) (k v : Value) : Entries :=
  match es.place? k with
  | some i => es.set! i (some (k, v))
  | none => es.push (some (k, v))

def remove (es : Entries) (k : Value) : Entries :=
  match es.place? k with
  | some i => es.set! i none
  | none => es

def count (es : Entries) : Nat := (es.filter Option.isSome).size

end Entries

/-- The key zero has no sign. -/
def keyOf : Value → Value
  | .number x => .number (if x == 0 then 0 else x)
  | v => v

/-- The object that a method works on, and its entries. -/
def thisEntries (c : NativeCall) (isMap : Bool) : Run (Ref × Entries) := do
  match c.self, ← c.self.body with
  | .object r, .map es =>
    if isMap then return (r, es) else typeError "'this' is not a Set"
  | .object r, .set es =>
    if isMap then typeError "'this' is not a Map" else return (r, es)
  | _, _ => typeError (if isMap then "'this' is not a Map" else "'this' is not a Set")

def replaceEntries (r : Ref) (es : Entries) : Run Unit :=
  changeBody r fun
    | .map _ => .map es
    | .set _ => .set es
    | b => b

/-- Calls a function for every entry, also for those that are put in meanwhile. -/
def eachEntry (r : Ref) (visit : Value × Value → Run Unit) : Run Unit :=
  iterate (fun i => do
    match ← bodyOf r with
    | .map es | .set es =>
      if i < es.size then
        match es[i]?.join with
        | some e => visit e
        | none => pure ()
        return .inl (i + 1)
      else return .inr ()
    | _ => return .inr ()) 0

def shared (isMap : Bool) : List NativeFunction := [
  ⟨"has", 1, fun c => do
    let (_, es) ← thisEntries c isMap
    return .boolean (es.place? (c.arg 0)).isSome⟩,
  ⟨"delete", 1, fun c => do
    let (r, es) ← thisEntries c isMap
    replaceEntries r (es.remove (c.arg 0))
    return .boolean (es.place? (c.arg 0)).isSome⟩]

def goingThrough (isMap : Bool) : List NativeFunction := [
  ⟨"clear", 0, fun c => do
    let (r, es) ← thisEntries c isMap
    replaceEntries r (es.map fun _ => none)
    return .undefined⟩,
  ⟨"forEach", 1, fun c => do
    let (r, _) ← thisEntries c isMap
    let f ← callback (c.arg 0) (if isMap then "not a callable function"
      else "'callbackfn' must be callable")
    eachEntry r fun (k, v) => do
      let _ ← call f (c.arg 1) [v, k, .object r]
    return .undefined⟩,
  ⟨"entries", 0, fun c => do
    let (r, _) ← thisEntries c isMap
    cursorOver (if isMap then .mapIteratorProto else .setIteratorProto) (.object r) "entries"⟩,
  ⟨"values", 0, fun c => do
    let (r, _) ← thisEntries c isMap
    cursorOver (if isMap then .mapIteratorProto else .setIteratorProto) (.object r) "values"⟩,
  ⟨"keys", 0, fun c => do
    let (r, _) ← thisEntries c isMap
    cursorOver (if isMap then .mapIteratorProto else .setIteratorProto) (.object r) "keys"⟩]

def putting : List NativeFunction := [
  ⟨"get", 1, fun c => do
    let (_, es) ← thisEntries c true
    return (es.lookup? (c.arg 0)).getD .undefined⟩,
  ⟨"set", 2, fun c => do
    let (r, es) ← thisEntries c true
    replaceEntries r (es.put (keyOf (c.arg 0)) (c.arg 1))
    return .object r⟩]

def adding : List NativeFunction := [
  ⟨"add", 1, fun c => do
    let (r, es) ← thisEntries c false
    let k := keyOf (c.arg 0)
    replaceEntries r (es.put k k)
    return .object r⟩]

/-- What a method that combines two sets makes of their values. -/
def combined (choose : (own other : List Value) → List Value) (c : NativeCall) : Run Value := do
  let (_, es) ← thisEntries c false
  let other ← match ← (c.arg 0).body with
    | .set es | .map es => pure ((es.toList.filterMap id).map (·.1))
    | _ => typeError "'other' must be an Object"
  let own := (es.toList.filterMap id).map (·.1)
  let all : Entries := (choose own other).foldl (fun es v => es.put v v) #[]
  return .object (← allocate { body := .set all, proto := some Intrinsic.setProto.ref })

def isAmong (vs : List Value) (v : Value) : Bool := vs.any v.isSameOrNaN

/-- What a method says about two sets. -/
def compared (holds : (own other : List Value) → Bool) (c : NativeCall) : Run Value := do
  let (_, es) ← thisEntries c false
  match ← (c.arg 0).body with
  | .set others | .map others =>
    return .boolean (holds ((es.toList.filterMap id).map (·.1))
      ((others.toList.filterMap id).map (·.1)))
  | _ => typeError "'other' must be an Object"

def setAlgebra : List NativeFunction := [
  ⟨"union", 1, combined fun a b => a ++ b⟩,
  ⟨"intersection", 1, combined fun a b => a.filter (isAmong b)⟩,
  ⟨"difference", 1, combined fun a b => a.filter fun v => !isAmong b v⟩,
  ⟨"symmetricDifference", 1, combined fun a b =>
    (a.filter fun v => !isAmong b v) ++ b.filter fun v => !isAmong a v⟩,
  ⟨"isSubsetOf", 1, compared fun a b => a.all (isAmong b)⟩,
  ⟨"isSupersetOf", 1, compared fun a b => b.all (isAmong a)⟩,
  ⟨"isDisjointFrom", 1, compared fun a b => !a.any (isAmong b)⟩]

def mapMethods : List NativeFunction := putting ++ shared true ++ goingThrough true

def setMethods : List NativeFunction := adding ++ shared false ++ goingThrough false ++ setAlgebra

def weakMapMethods : List NativeFunction := putting ++ shared true

def weakSetMethods : List NativeFunction := adding ++ shared false

def sizeGetter (isMap : Bool) (c : NativeCall) : Run Value := do
  let (_, es) ← thisEntries c isMap
  return numberValue es.count

/-- Makes a collection and fills it with what a value gives. -/
def constructCollection (name : String) (proto : Intrinsic) (isMap : Bool) (c : NativeCall) :
    Run Value := do
  if !c.isNew then
    typeError ("calling a builtin " ++ name ++ " constructor without new is forbidden")
  let proto ← match c.newTarget with
    | .object t =>
      match ← getNamed t "prototype" with
      | .object p => pure p
      | _ => pure proto.ref
    | _ => pure proto.ref
  let r ← allocate { body := if isMap then .map #[] else .set #[], proto := some proto }
  if !(c.arg 0).isNullish then
    let put ← getNamed r (if isMap then "set" else "add")
    foldValues (c.arg 0) (fun () v => do
      let args ← if isMap then
          match v with
          | .object e => pure [← getProperty e (.ofNat 0), ← getProperty e (.ofNat 1)]
          | _ => typeError "cannot get key and value from primitive item of `iterable`"
        else pure [v]
      let _ ← call put (.object r) args) ()
  return .object r

def groupedMap (c : NativeCall) : Run Value := do
  let f ← callback (c.arg 1) "callback must be a callable object"
  let (_, groups) ← foldValues (c.arg 0) (fun ((i, groups) : Nat × Entries) v => do
    let k := keyOf (← call f .undefined [v, numberValue i])
    match groups.lookup? k with
    | some (.object items) =>
      changeBody items fun
        | .array vs => .array (vs.push (some v))
        | b => b
      return (i + 1, groups)
    | _ => return (i + 1, groups.put k (← listOf [v]))) (0, #[])
  return .object (← allocate { body := .map groups, proto := some Intrinsic.mapProto.ref })

end PagePreview.Engine.Library
