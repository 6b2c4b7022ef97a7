import PagePreview.Engine.Iteration
import PagePreview.Engine.Library.Basic
import PagePreview.Engine.Operate

/-!
# Objects of the library

What `Object` offers: looking at the properties of objects, making objects and
properties, and closing objects against changes.
-/

namespace PagePreview.Engine.Library

/-! ## Descriptions of properties -/

/-- The object that describes a property. -/
def describe (p : Property) : Run Value := do
  let r ← plainObject
  let put (name : String) (v : Value) : Run Unit := defineOwn r (.text name) (.ofValue v)
  match p.slot with
  | .data v writable =>
    put "value" v
    put "writable" (.boolean writable)
  | .accessor get set =>
    put "get" get
    put "set" set
  put "enumerable" (.boolean p.enumerable)
  put "configurable" (.boolean p.configurable)
  return .object r

/-- What a description asks for; parts that it does not mention are missing. -/
structure Description where
  value : Option Value := none
  writable : Option Bool := none
  get : Option Value := none
  set : Option Value := none
  enumerable : Option Bool := none
  configurable : Option Bool := none

def readDescription (v : Value) : Run Description := do
  match v with
  | .object r =>
    let field (name : String) : Run (Option Value) := do
      if ← hasProperty r (.text name) then return some (← getNamed r name) else return none
    let flag (name : String) : Run (Option Bool) := return (← field name).map Value.truth
    let function (name : String) (message : String) : Run (Option Value) := do
      match ← field name with
      | some .undefined => return some .undefined
      | some f => return some (← callback f message)
      | none => return none
    let enumerable ← flag "enumerable"
    let configurable ← flag "configurable"
    let value ← field "value"
    let writable ← flag "writable"
    let get ← function "get" "Property descriptor getter must be callable"
    let set ← function "set" "Property descriptor setter must be callable"
    if (get.isSome || set.isSome) && (value.isSome || writable.isSome) then
      typeError "Invalid property descriptor. Cannot both specify accessors and a value or writable attribute"
    return { value, writable, get, set, enumerable, configurable }
  | _ => typeError "Cannot construct a property descriptor from a non-object"

/-- The property that comes of a description, given what was there before. -/
def Description.onto (d : Description) (old : Option Property) : Property :=
  let slot : Slot :=
    if d.get.isSome || d.set.isSome then
      let (g, s) : Value × Value := match old.map Property.slot with
        | some (.accessor g s) => (g, s)
        | _ => (.undefined, .undefined)
      .accessor (d.get.getD g) (d.set.getD s)
    else
      match old.map Property.slot with
      | some (.data v w) => .data (d.value.getD v) (d.writable.getD w)
      | some (.accessor g s) =>
        if d.value.isSome || d.writable.isSome then
          .data (d.value.getD .undefined) (d.writable.getD false)
        else .accessor g s
      | none => .data (d.value.getD .undefined) (d.writable.getD false)
  { slot
    enumerable := d.enumerable.getD (old.elim false (·.enumerable))
    configurable := d.configurable.getD (old.elim false (·.configurable)) }

/-- Whether a property that cannot be configured allows what a description asks for. -/
def Description.isAllowed (d : Description) (old : Property) : Bool :=
  let same (wanted : Option Value) (v : Value) : Bool := wanted.elim true v.isIdentical
  old.configurable ||
    (d.configurable != some true && (d.enumerable.getD old.enumerable == old.enumerable) &&
      match old.slot with
      | .data v writable =>
        d.get.isNone && d.set.isNone &&
          (writable || (d.writable != some true && same d.value v))
      | .accessor g s =>
        d.value.isNone && d.writable.isNone && same d.get g && same d.set s)

/-- Gives an object a property as a description asks for it; whether that is possible. -/
def defineDescribed (r : Ref) (k : Key) (d : Description) : Run Bool := do
  match ← getOwn r k with
  | none =>
    if !(← object r).extensible then return false
    defineOwn r k (d.onto none)
    return true
  | some old =>
    if !d.isAllowed old then return false
    defineOwn r k (d.onto (some old))
    return true

def definedProperty (r : Ref) (k : Key) (description : Value) : Run Unit := do
  let d ← readDescription description
  if !(← defineDescribed r k d) then
    typeError ("Cannot redefine property: " ++ (← k.shown))

def defineAll (r : Ref) (descriptions : Value) : Run Unit := do
  let ds ← toObject descriptions
  let found ← (← ownKeys ds).filterMapM fun k => do
    match ← getOwn ds k with
    | some p => if p.enumerable then return some (k, ← getProperty ds k) else return none
    | none => return none
  for (k, d) in found do definedProperty r k d

/-! ## Closing objects -/

/-- Makes the properties of an object permanent, and their values too if `values` says so. -/
def close (r : Ref) (values : Bool) : Run Unit := do
  for k in ← ownKeys r do
    match ← getOwn r k with
    | some p =>
      if k != .text "length" || !(← isArrayRef r) then
        let slot := match p.slot with
          | .data v w => .data v (w && !values)
          | s => s
        defineOwn r k { p with slot, configurable := false }
    | none => pure ()
  changeObject r fun o => { o with extensible := false }
where
  isArrayRef (r : Ref) : Run Bool := return (← bodyOf r) matches .array _

/-- Whether the properties of an object are permanent. -/
def isClosed (r : Ref) (values : Bool) : Run Bool := do
  if (← object r).extensible then return false
  (← ownKeys r).allM fun k => do
    match ← getOwn r k with
    | some p =>
      let fixed := match p.slot with
        | .data _ w => !(w && values)
        | _ => true
      return (!p.configurable && fixed) ||
        (k == .text "length" && ((← bodyOf r) matches .array _))
    | none => return true

/-! ## Functions of `Object` -/

def objectArgument (c : NativeCall) (name : String) : Run Ref := do
  match c.arg 0 with
  | .object r => return r
  | _ => typeError ("Object." ++ name ++ " called on non-object")

/-- The listed properties of a value, each as `shape` gives it. -/
def listed (c : NativeCall) (shape : Value → Value → Run Value) : Run Value := do
  let r ← toObject (c.arg 0)
  let items ← (← listedKeys r).mapM fun s => do shape (.text s) (← getNamed r s)
  listOf items

def protoValue (r : Ref) : Run Value := return (← object r).proto.elim .null .object

/-- Whether an object would become a prototype of itself. -/
def setProto (r : Ref) (proto : Value) : Run Bool := do
  match proto with
  | .null => changeObject r fun o => { o with proto := none }; return true
  | .object p =>
    if (← object r).proto == some p then return true
    if !(← object r).extensible then return false
    if p == r then return false
    if ← isProtoOf r maxProtos p then return false
    changeObject r fun o => { o with proto := some p }
    return true
  | _ => return false

def keysOf (c : NativeCall) (shape : Key → Option Value) : Run Value := do
  listOf ((← ownKeys (← toObject (c.arg 0))).filterMap shape)

def groupValues (c : NativeCall) : Run Value := do
  let f ← callback (c.arg 1) "callback must be a callable object"
  let r ← allocate {}
  let _ ← foldValues (c.arg 0) (fun (i : Nat) v => do
    let k ← toKey (← call f .undefined [v, numberValue i])
    match ← getProperty r k with
    | .object items =>
      changeBody items fun
        | .array vs => .array (vs.push (some v))
        | b => b
    | _ => defineOwn r k (.ofValue (← listOf [v]))
    return i + 1) 0
  return .object r

def objectStatics : List NativeFunction := [
  ⟨"keys", 1, (listed · fun k _ => return k)⟩,
  ⟨"values", 1, (listed · fun _ v => return v)⟩,
  ⟨"entries", 1, (listed · fun k v => listOf [k, v])⟩,
  ⟨"assign", 2, fun c => do
    let r ← toObject (c.arg 0)
    for source in c.arguments.drop 1 do
      if !source.isNullish then
        let s ← toObject source
        for k in ← ownKeys s do
          match ← getOwn s k with
          | some p => if p.enumerable then setProperty true r k (← getProperty s k)
          | none => pure ()
    return .object r⟩,
  ⟨"create", 2, fun c => do
    let r ← match c.arg 0 with
      | .object p => allocate { proto := some p }
      | .null => allocate {}
      | v => typeError ("Object prototype may only be an Object or null: " ++ (← toText v))
    if !((c.arg 1) matches .undefined) then defineAll r (c.arg 1)
    return .object r⟩,
  ⟨"defineProperty", 3, fun c => do
    let r ← objectArgument c "defineProperty"
    definedProperty r (← toKey (c.arg 1)) (c.arg 2)
    return .object r⟩,
  ⟨"defineProperties", 2, fun c => do
    let r ← objectArgument c "defineProperties"
    defineAll r (c.arg 1)
    return .object r⟩,
  ⟨"getOwnPropertyNames", 1, (keysOf · fun
    | .text s => some (.text s)
    | _ => none)⟩,
  ⟨"getOwnPropertySymbols", 1, (keysOf · fun
    | .symbol id => some (.symbol id)
    | _ => none)⟩,
  ⟨"getOwnPropertyDescriptor", 2, fun c => do
    match ← getOwn (← toObject (c.arg 0)) (← toKey (c.arg 1)) with
    | some p => describe p
    | none => return .undefined⟩,
  ⟨"getOwnPropertyDescriptors", 1, fun c => do
    let r ← toObject (c.arg 0)
    let all ← plainObject
    for k in ← ownKeys r do
      match ← getOwn r k with
      | some p => defineOwn all k (.ofValue (← describe p))
      | none => pure ()
    return .object all⟩,
  ⟨"getPrototypeOf", 1, fun c => do protoValue (← toObject (c.arg 0))⟩,
  ⟨"setPrototypeOf", 2, fun c => do
    match c.arg 0, c.arg 1 with
    | .undefined, _ | .null, _ => typeError "cannot convert 'null' or 'undefined' to object"
    | .object r, .object _ | .object r, .null =>
      if !(← setProto r (c.arg 1)) then typeError "can't set prototype of this object"
    | _, .object _ | _, .null => pure ()
    | _, v =>
      typeError ("Object prototype may only be an Object or null: " ++ (← toText v))
    return c.arg 0⟩,
  ⟨"is", 2, fun c => return .boolean ((c.arg 0).isIdentical (c.arg 1))⟩,
  ⟨"freeze", 1, fun c => do
    match c.arg 0 with
    | .object r => close r true
    | _ => pure ()
    return c.arg 0⟩,
  ⟨"seal", 1, fun c => do
    match c.arg 0 with
    | .object r => close r false
    | _ => pure ()
    return c.arg 0⟩,
  ⟨"preventExtensions", 1, fun c => do
    match c.arg 0 with
    | .object r => changeObject r fun o => { o with extensible := false }
    | _ => pure ()
    return c.arg 0⟩,
  ⟨"isFrozen", 1, fun c => do
    match c.arg 0 with
    | .object r => return .boolean (← isClosed r true)
    | _ => return .boolean true⟩,
  ⟨"isSealed", 1, fun c => do
    match c.arg 0 with
    | .object r => return .boolean (← isClosed r false)
    | _ => return .boolean true⟩,
  ⟨"isExtensible", 1, fun c => do
    match c.arg 0 with
    | .object r => return .boolean (← object r).extensible
    | _ => return .boolean false⟩,
  ⟨"fromEntries", 1, fun c => do
    if (c.arg 0).isNullish then typeError "cannot convert null or undefined to Object"
    let r ← plainObject
    foldValues (c.arg 0) (fun () entry => do
      match entry with
      | .object e =>
        let k ← toKey (← getProperty e (.ofNat 0))
        defineOwn r k (.ofValue (← getProperty e (.ofNat 1)))
      | _ => typeError "iterator value should be an object") ()
    return .object r⟩,
  ⟨"hasOwn", 2, fun c => do
    let r ← toObject (c.arg 0)
    return .boolean (← hasOwn r (← toKey (c.arg 1)))⟩,
  ⟨"groupBy", 2, groupValues⟩]

/-! ## Functions of all objects -/

/-- The word for what an object is. -/
def kindWord : Body → String
  | .array _ => "Array"
  | .closure _ | .native .. | .bound .. => "Function"
  | .error => "Error"
  | .wrapper (.boolean _) => "Boolean"
  | .wrapper (.number _) => "Number"
  | .wrapper (.text _) => "String"
  | .date _ => "Date"
  | .pattern .. => "RegExp"
  | .arguments => "Arguments"
  | _ => "Object"

/-- A value in brackets, as what it is. -/
def bracketed (v : Value) : Run String := do
  match v with
  | .undefined => return "[object Undefined]"
  | .null => return "[object Null]"
  | v =>
    let r ← toObject v
    let word ← match ← getFrom r WellKnown.toStringTag.key v with
      | .text s => pure s
      | _ => pure (kindWord (← bodyOf r))
    return "[object " ++ word ++ "]"

/-- Gives an object a property that is read or written by a function. The other of the two
functions stays if there is one. -/
def setAccessor (c : NativeCall) (name : String) (reads : Bool) : Run Value := do
  let r ← toObject c.self
  let f := c.arg 1
  if !(← isCallable f) then
    typeError ("Object.prototype." ++ name ++ ": Expecting function")
  let k ← toKey (c.arg 0)
  let (get, set) := match ← getOwn r k with
    | some ⟨.accessor get set, _, _⟩ => (get, set)
    | _ => (.undefined, .undefined)
  defineOwn r k ⟨if reads then .accessor f set else .accessor get f, true, true⟩
  return .undefined

/-- The function that reads or writes a property, of an object or of those behind it. -/
def accessorOf (c : NativeCall) (reads : Bool) : Run Value := do
  let r ← toObject c.self
  match ← findProperty r (← toKey (c.arg 0)) with
  | some (_, ⟨.accessor get set, _, _⟩) => return if reads then get else set
  | _ => return .undefined

def objectMethods : List NativeFunction := [
  ⟨"hasOwnProperty", 1, fun c => do
    let k ← toKey (c.arg 0)
    return .boolean (← hasOwn (← toObject c.self) k)⟩,
  ⟨"isPrototypeOf", 1, fun c => do
    match c.arg 0 with
    | .object r => return .boolean (← isProtoOf (← toObject c.self) maxProtos r)
    | _ => return .boolean false⟩,
  ⟨"propertyIsEnumerable", 1, fun c => do
    let k ← toKey (c.arg 0)
    match ← getOwn (← toObject c.self) k with
    | some p => return .boolean p.enumerable
    | none => return .boolean false⟩,
  ⟨"toString", 0, fun c => return .text (← bracketed c.self)⟩,
  ⟨"toLocaleString", 0, fun c => invoke c.self "toString" []⟩,
  ⟨"valueOf", 0, fun c => return .object (← toObject c.self)⟩,
  ⟨"__defineGetter__", 2, (setAccessor · "__defineGetter__" true)⟩,
  ⟨"__defineSetter__", 2, (setAccessor · "__defineSetter__" false)⟩,
  ⟨"__lookupGetter__", 1, (accessorOf · true)⟩,
  ⟨"__lookupSetter__", 1, (accessorOf · false)⟩]

/-- The functions behind the property that stands for the prototype of an object. -/
def protoFunctions : List NativeFunction := [
  ⟨"__proto__", 0, fun c => do protoValue (← toObject c.self)⟩,
  ⟨"set __proto__", 1, fun c => do
    match c.self with
    | .object r => if !(← setProto r (c.arg 0)) && !((c.arg 0) matches .undefined) then
        match c.arg 0 with
        | .object _ => typeError "can't set prototype of this object"
        | _ => pure ()
    | _ => pure ()
    return .undefined⟩]

def constructObject (c : NativeCall) : Run Value := do
  match c.newTarget, c.arg 0 with
  | .object t, _ =>
    if t != c.function then
      match ← getNamed t "prototype" with
      | .object p => return .object (← allocate { proto := some p })
      | _ => return .object (← plainObject)
    else fresh (c.arg 0)
  | _, v => fresh v
where
  fresh (v : Value) : Run Value := do
    if v.isNullish then return .object (← plainObject) else return .object (← toObject v)

end PagePreview.Engine.Library
