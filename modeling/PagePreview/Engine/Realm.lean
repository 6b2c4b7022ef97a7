import PagePreview.Engine.Library

/-!
# The world that scripts begin in

A fresh machine has the objects of the library, all of them reached from the
global object.
-/

namespace PagePreview.Engine

open Library

/-- An object of the library before its functions are put into it. -/
def bareObject (i : Intrinsic) : Object :=
  let body : Body := match i with
    | .functionProto => .native "special" "nothing" false []
    | .arrayProto => .array #[]
    | .stringProto => .wrapper (.text "")
    | .numberProto => .wrapper (.number 0)
    | .booleanProto => .wrapper (.boolean false)
    | _ => .plain
  let proto : Option Ref := match i with
    | .objectProto => none
    | .arrayIteratorProto | .stringIteratorProto | .mapIteratorProto | .setIteratorProto
    | .generatorProto => some Intrinsic.iteratorProto.ref
    | .typeErrorProto | .rangeErrorProto | .syntaxErrorProto | .referenceErrorProto
    | .evalErrorProto | .uriErrorProto | .aggregateErrorProto => some Intrinsic.errorProto.ref
    | _ => some Intrinsic.objectProto.ref
  { body, proto }

def intrinsics : List Intrinsic := [
  .global, .objectProto, .functionProto, .arrayProto, .stringProto, .numberProto, .booleanProto,
  .symbolProto, .bigintProto, .iteratorProto, .arrayIteratorProto, .stringIteratorProto,
  .mapIteratorProto, .setIteratorProto, .generatorProto, .streamProto, .promiseProto, .mapProto,
  .setProto, .weakMapProto, .weakSetProto, .dateProto, .patternProto, .errorProto,
  .typeErrorProto, .rangeErrorProto, .syntaxErrorProto, .referenceErrorProto, .evalErrorProto,
  .uriErrorProto, .aggregateErrorProto]

/-- The objects are listed in the order in which they are numbered, and none is missing. -/
theorem intrinsics_numbered : intrinsics.map Intrinsic.ref = List.range Intrinsic.count := by
  decide

/-- A machine with nothing but the objects that the library is put into. -/
def bareMachine : Machine := {
  objects := (intrinsics.map bareObject).toArray
  scopes := #[
    { object := some Intrinsic.global.ref
      call := some { self := some Intrinsic.global.value, function := none } },
    { parent := some globalObjectScope, holdsVariables := true }]
  symbols := (WellKnown.all.map fun s => some ("Symbol." ++ s.name)).toArray }

def putQuiet (r : Ref) (k : Key) (v : Value) : Run Unit := changeObject r (·.store k (.quiet v))

def putFixed (r : Ref) (k : Key) (v : Value) : Run Unit := changeObject r (·.store k (.fixed v))

def defineGlobal (name : String) (v : Value) : Run Unit :=
  putQuiet Intrinsic.global.ref (.text name) v

/-- Makes a constructor and ties it to its prototype. -/
def installConstructor (e : ConstructorEntry) : Run Unit := do
  let v ← nativeFunction "constructor" e.name e.length [] e.name true
  match v with
  | .object f =>
    putFixed f (.text "prototype") e.proto.value
    putQuiet e.proto.ref (.text "constructor") v
    match staticShelves.find? (·.owner == e.name) with
    | some shelf => shelf.install f
    | none => pure ()
    defineGlobal e.name v
  | _ => pure ()

/-- The object of a constructor. -/
def constructorRef (name : String) : Run Ref := do
  match ← getNamed Intrinsic.global.ref name with
  | .object r => return r
  | _ => return Intrinsic.global.ref

/-- An object with functions under a name of the global object. -/
def installNamed (s : Shelf) : Run Ref := do
  let r ← plainObject
  s.install r
  changeObject r (·.store WellKnown.toStringTag.key (.settled (.text s.owner)))
  defineGlobal s.owner (.object r)
  return r

def installConstants (r : Ref) (constants : List (String × Float)) : Run Unit := do
  for (name, x) in constants do putFixed r (.text name) (.number x)

/-- Words that say what the objects of a prototype are. -/
def tags : List (Intrinsic × String) := [
  (.symbolProto, "Symbol"), (.bigintProto, "BigInt"), (.promiseProto, "Promise"),
  (.mapProto, "Map"), (.setProto, "Set"), (.weakMapProto, "WeakMap"), (.weakSetProto, "WeakSet"),
  (.arrayIteratorProto, "Array Iterator"), (.stringIteratorProto, "String Iterator"),
  (.mapIteratorProto, "Map Iterator"), (.setIteratorProto, "Set Iterator"),
  (.generatorProto, "Generator"), (.streamProto, "AsyncGenerator")]

/-- The names of errors, with their prototypes. -/
def errorNames : List (Intrinsic × String) := [
  (.errorProto, "Error"), (.typeErrorProto, "TypeError"), (.rangeErrorProto, "RangeError"),
  (.syntaxErrorProto, "SyntaxError"), (.referenceErrorProto, "ReferenceError"),
  (.evalErrorProto, "EvalError"), (.uriErrorProto, "URIError"),
  (.aggregateErrorProto, "AggregateError")]

/-- Functions that stand under symbols. -/
def installSymbols : Run Unit := do
  let special (r : Ref) (k : Key) (name shown : String) (length : Nat) : Run Unit := do
    putQuiet r k (← nativeFunction "special" name length [] shown)
  let also (i : Intrinsic) (k : Key) (name : String) : Run Unit := do
    putQuiet i.ref k (← getNamed i.ref name)
  special Intrinsic.iteratorProto.ref WellKnown.iterator.key "self" "[Symbol.iterator]" 0
  special Intrinsic.streamProto.ref WellKnown.asyncIterator.key "self" "[Symbol.asyncIterator]" 0
  special Intrinsic.stringProto.ref WellKnown.iterator.key "String iterator" "[Symbol.iterator]" 0
  special Intrinsic.functionProto.ref WellKnown.hasInstance.key "hasInstance" "[Symbol.hasInstance]" 1
  special Intrinsic.dateProto.ref WellKnown.toPrimitive.key "Date primitive" "[Symbol.toPrimitive]" 1
  special Intrinsic.symbolProto.ref WellKnown.toPrimitive.key "Symbol primitive"
    "[Symbol.toPrimitive]" 1
  also .arrayProto WellKnown.iterator.key "values"
  also .mapProto WellKnown.iterator.key "entries"
  also .setProto WellKnown.iterator.key "values"
  for (i, tag) in tags do
    changeObject i.ref (·.store WellKnown.toStringTag.key (.settled (.text tag)))

/-- The accessor through which scripts see the prototype of an object. -/
def installProtoAccessor : Run Unit := do
  let get ← nativeFunction "proto" "__proto__" 0 [] "get __proto__"
  let put ← nativeFunction "proto" "set __proto__" 1
  changeObject Intrinsic.objectProto.ref
    (·.store (.text "__proto__") ⟨.accessor get put, false, true⟩)

/-- Puts the library into a bare machine. -/
def installLibrary : Run Unit := do
  for (i, shelf) in protoShelves do shelf.install i.ref
  for e in constructors do installConstructor e
  for shelf in namedShelves do
    let r ← installNamed shelf
    if shelf.owner == "Math" then installConstants r mathConstants
  globalShelf.install Intrinsic.global.ref
  parseShelf.install Intrinsic.global.ref
  let number ← constructorRef "Number"
  installConstants number numberConstants
  for f in parseFunctions do
    putQuiet number (.text f.name) (← getNamed Intrinsic.global.ref f.name)
  let symbol ← constructorRef "Symbol"
  for s in WellKnown.all do putFixed symbol (.text s.name) (.symbol s.id)
  for (i, k, f) in getters do installGetter i.ref "getter" f.name k
  for (i, name) in errorNames do
    putQuiet i.ref (.text "name") (.text name)
    putQuiet i.ref (.text "message") (.text "")
  let error ← constructorRef "Error"
  for (_, name) in errorNames.drop 1 do
    changeObject (← constructorRef name) fun o => { o with proto := some error }
  installSymbols
  installProtoAccessor
  defineGlobal "globalThis" Intrinsic.global.value
  installConstants Intrinsic.global.ref [("NaN", nan), ("Infinity", infinity)]
  putFixed Intrinsic.global.ref (.text "undefined") .undefined

end PagePreview.Engine
