import PagePreview.Decimal.Notation
import PagePreview.Engine.Run
import PagePreview.Text.Units

/-!
# Properties of objects

A property is looked for in an object first and then in its prototypes. Some
objects have properties that are not stored as such: the items of an array
and its length, the units of a text, the exports of a module. `getOwn`,
`defineOwn` and `removeOwn` know about these; everything else is built on
them.
-/

namespace PagePreview.Engine

open Text

/-! ## Keys -/

/-- The number that a key is the decimal form of, if it is the index of an item. -/
def index? (s : String) : Option Nat :=
  match s.toList with
  | [] => none
  | ['0'] => some 0
  | c :: cs =>
    if '1' ≤ c && c ≤ '9' && cs.all Char.isDigit && cs.length < 10 then
      let n := (c :: cs).foldl (fun n d => 10 * n + (d.toNat - '0'.toNat)) 0
      if n < Nat.pow 2 32 - 1 then some n else none
    else none

def Key.index? : Key → Option Nat
  | .text s => Engine.index? s
  | _ => none

def natText (n : Nat) : String := String.ofList (Decimal.natDigits n)

def Key.ofNat (n : Nat) : Key := .text (natText n)

/-- A key in an error text. -/
def Key.shown : Key → Run String
  | .text s => return s
  | .symbol id => return "Symbol(" ++ ((← get).symbols.getD id none).getD "" ++ ")"
  | .hidden id => return "#" ++ ((← get).symbols.getD id none).getD ""

/-! ## Own properties -/

namespace Object

def stored? (o : Object) (k : Key) : Option Property :=
  (o.properties.find? (·.1 == k)).map (·.2)

/-- Stores a property, in the place of one with the same key or behind all others. -/
def store (o : Object) (k : Key) (p : Property) : Object :=
  match o.properties.findIdx? (·.1 == k) with
  | some i => { o with properties := o.properties.set! i (k, p) }
  | none => { o with properties := o.properties.push (k, p) }

def discard (o : Object) (k : Key) : Object :=
  { o with properties := o.properties.filter (·.1 != k) }

end Object

/-- As many holes may come up behind the items of an array at once. -/
def maxGap : Nat := 1000000

/-- The property of an object itself. -/
def getOwn (r : Ref) (k : Key) : Run (Option Property) := do
  let o ← object r
  match o.body, k with
  | .array items, .text s =>
    if s == "length" then
      return some ⟨.data (.number (Float.ofNat items.size)) true, false, false⟩
    match (index? s).bind fun i => (items[i]?).join with
    | some v => return some (.ofValue v)
    | none => return o.stored? k
  | .wrapper (.text t), .text s =>
    if s == "length" then
      return some (.fixed (.number (Float.ofNat (Units.count t))))
    match (index? s).bind fun i => (Units.ofString t)[i]? with
    | some u => return some ⟨.data (.text (Units.toString [u])) false, true, false⟩
    | none => return o.stored? k
  | .namespace sc exports, .text s =>
    match exports.lookup s with
    | none => return none
    | some name =>
      match (← scope sc).bindings.lookup name with
      | some { value := some v, .. } => return some ⟨.data v true, true, false⟩
      | _ => referenceError (s ++ " is not defined")
  | _, _ => return o.stored? k

/-- Puts an item into an array. Places in between become holes. -/
def putItem (items : Array (Option Value)) (i : Nat) (v : Value) : Array (Option Value) :=
  if i < items.size then items.set! i (some v)
  else (items ++ Array.replicate (i - items.size) none).push (some v)

/-- Sets how long an array is. -/
def resize (items : Array (Option Value)) (n : Nat) : Array (Option Value) :=
  if n ≤ items.size then items.extract 0 n else items ++ Array.replicate (n - items.size) none

/-- Whether a property is one that assignments make. -/
def Property.isOrdinary : Property → Option Value
  | ⟨.data v true, true, true⟩ => some v
  | _ => none

/-- The length that a value stands for. -/
def lengthOf? : Value → Option Nat
  | .number x => if 0 ≤ x && x < 4294967296 && x.floor == x then some x.toUInt64.toNat else none
  | _ => none

/-- Gives an object a property, whatever was there before. -/
def defineOwn (r : Ref) (k : Key) (p : Property) : Run Unit := do
  let o ← object r
  match o.body, k with
  | .array items, .text "length" =>
    match p.slot with
    | .data v _ =>
      match lengthOf? v with
      | some n =>
        if items.size + maxGap < n then rangeError "invalid array length"
        changeBody r fun
          | .array items => .array (resize items n)
          | b => b
      | none => rangeError "invalid array length"
    | _ => pure ()
  | .array items, _ =>
    match k.index?, p.isOrdinary with
    | some i, some v =>
      if items.size + maxGap < i then changeObject r (·.store k p)
      else changeBody r fun
        | .array items => .array (putItem items i v)
        | b => b
    | some i, none =>
      changeObject r fun o =>
        let body := match o.body with
          | .array items =>
            if i < items.size then .array (items.set! i none)
            else .array (items ++ Array.replicate (i + 1 - items.size) none)
          | b => b
        { o.store k p with body }
    | none, _ => changeObject r (·.store k p)
  | _, _ => changeObject r (·.store k p)

/-- Takes a property away; whether it is gone. -/
def removeOwn (r : Ref) (k : Key) : Run Bool := do
  match ← getOwn r k with
  | none => return true
  | some p =>
    if !p.configurable then return false
    changeObject r fun o =>
      let body := match o.body, k.index? with
        | .array items, some i => .array (if i < items.size then items.set! i none else items)
        | b, _ => b
      { o.discard k with body }
    return true

/-- The keys of an object: indices in their order, then texts, then symbols. -/
def ownKeys (r : Ref) : Run (List Key) := do
  let o ← object r
  let held : List Key := match o.body with
    | .array items =>
      ((List.range items.size).filter fun i => ((items[i]?).join).isSome).map Key.ofNat
    | .wrapper (.text t) => (List.range (Units.count t)).map Key.ofNat
    | .namespace _ exports => exports.map fun e => .text e.1
    | _ => []
  let keys := o.properties.toList.map (·.1)
  let numbered := keys.filterMap fun k => k.index?.map fun i => (i, k)
  let sorted := numbered.mergeSort fun a b => a.1 ≤ b.1
  let length : List Key := match o.body with
    | .array _ | .wrapper (.text _) => [.text "length"]
    | _ => []
  let texts := keys.filter fun k => match k with
    | .text _ => k.index?.isNone
    | _ => false
  let symbols := keys.filter fun k => match k with
    | .symbol _ => true
    | _ => false
  return held ++ sorted.map (·.2) ++ length ++ texts ++ symbols

/-- The keys that are texts and are listed. -/
def listedKeys (r : Ref) : Run (List String) := do
  (← ownKeys r).filterMapM fun k => do
    match k with
    | .text s =>
      match ← getOwn r k with
      | some p => return if p.enumerable then some s else none
      | none => return none
    | _ => return none

/-! ## Properties along the prototypes -/

/-- More than the number of prototypes that stand in a row. -/
def maxProtos : Nat := 10000

/-- The first object in the row of prototypes that has a property, and the property. -/
def findWithin : (bound : Nat) → Ref → Key → Run (Option (Ref × Property))
  | 0, _, _ => throw .tooDeep
  | bound + 1, r, k => do
    match ← getOwn r k with
    | some p => return some (r, p)
    | none =>
      match (← object r).proto with
      | some proto => findWithin bound proto k
      | none => return none

def findProperty (r : Ref) (k : Key) : Run (Option (Ref × Property)) := findWithin maxProtos r k

/-- The value of a property for a receiver. -/
def Property.read (p : Property) (receiver : Value) : Run Value :=
  match p.slot with
  | .data v _ => return v
  | .accessor .undefined _ => return .undefined
  | .accessor get _ => call get receiver []

def getFrom (r : Ref) (k : Key) (receiver : Value) : Run Value := do
  match ← findProperty r k with
  | some (_, p) => p.read receiver
  | none => return .undefined

/-- The value of a property of an object. -/
def getProperty (r : Ref) (k : Key) : Run Value := getFrom r k (.object r)

def getNamed (r : Ref) (name : String) : Run Value := getProperty r (.text name)

def hasProperty (r : Ref) (k : Key) : Run Bool := return (← findProperty r k).isSome

def hasOwn (r : Ref) (k : Key) : Run Bool := return (← getOwn r k).isSome

/-- Makes a property as an assignment makes it; whether that is possible. -/
def createOwn (r : Ref) (k : Key) (v : Value) : Run Bool := do
  match ← getOwn r k with
  | some ⟨.data _ true, e, c⟩ => defineOwn r k ⟨.data v true, e, c⟩; return true
  | some _ => return false
  | none =>
    if !(← object r).extensible then return false
    defineOwn r k (.ofValue v)
    return true

/-- Assigns a property for a receiver; whether that is possible. -/
def setFrom (r : Ref) (k : Key) (v receiver : Value) : Run Bool := do
  let onReceiver : Run Bool := match receiver with
    | .object t => createOwn t k v
    | _ => return false
  match ← findProperty r k with
  | none => onReceiver
  | some (_, ⟨.data _ true, _, _⟩) => onReceiver
  | some (_, ⟨.data _ false, _, _⟩) => return false
  | some (_, ⟨.accessor _ .undefined, _, _⟩) => return false
  | some (_, ⟨.accessor _ set, _, _⟩) =>
    let _ ← call set receiver [v]
    return true

/-- Assigns a property; throws if that is impossible and matters. -/
def setProperty (strict : Bool) (r : Ref) (k : Key) (v : Value) : Run Unit := do
  if !(← setFrom r k v (.object r)) && strict then
    typeError ("cannot set non-writable property: " ++ (← k.shown))

def setNamed (r : Ref) (name : String) (v : Value) : Run Unit :=
  setProperty true r (.text name) v

/-- Deletes a property; throws if that is impossible and matters. -/
def deleteProperty (strict : Bool) (r : Ref) (k : Key) : Run Bool := do
  let gone ← removeOwn r k
  if !gone && strict then typeError "cannot delete property"
  return gone

/-! ## Functions -/

/-- Whether a value can be called. -/
def isCallable (v : Value) : Run Bool := return (← v.body).isCallable

/-- Whether a function can be used with `new`. -/
def isConstructor (v : Value) : Run Bool := return (← v.body).constructs

/-- A method that may be missing. -/
def methodOf (r : Ref) (k : Key) : Run (Option Value) := do
  match ← getProperty r k with
  | .undefined | .null => return none
  | f => if ← isCallable f then return some f else typeError "value returned for property of object is not a function"

/-- A function of the library. -/
def nativeFunction (owner name : String) (length : Nat) (held : List Value := [])
    (shown : String := name) (constructs : Bool := false) : Run Value := do
  let properties := #[
    (Key.text "length", Property.settled (.number (Float.ofNat length))),
    (Key.text "name", Property.settled (.text shown))]
  return .object (← allocate {
    body := .native owner name constructs held, proto := some Intrinsic.functionProto.ref,
    properties })

end PagePreview.Engine
