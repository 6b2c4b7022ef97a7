import PagePreview.Engine.Library.Arrays
import PagePreview.Engine.Library.Collections
import PagePreview.Engine.Library.Dates
import PagePreview.Engine.Library.Functions
import PagePreview.Engine.Library.Globals
import PagePreview.Engine.Library.JsonText
import PagePreview.Engine.Library.Promises
import PagePreview.Engine.Library.Texts

/-!
# The library as a whole

`constructors` are the functions that `new` is used with, each with the
prototype of what it makes. `shelves` holds every function of the library.
-/

namespace PagePreview.Engine.Library

def constructors : List ConstructorEntry := [
  ⟨"Object", 1, .objectProto, constructObject⟩,
  ⟨"Function", 1, .functionProto, constructFunction "function"⟩,
  ⟨"Array", 1, .arrayProto, constructArray⟩,
  ⟨"String", 1, .stringProto, constructText⟩,
  ⟨"Number", 1, .numberProto, constructNumber⟩,
  ⟨"Boolean", 1, .booleanProto, constructBoolean⟩,
  ⟨"Symbol", 0, .symbolProto, constructSymbol⟩,
  ⟨"BigInt", 1, .bigintProto, constructBigint⟩,
  ⟨"Promise", 1, .promiseProto, constructPromise⟩,
  ⟨"Map", 0, .mapProto, constructCollection "Map" .mapProto true⟩,
  ⟨"Set", 0, .setProto, constructCollection "Set" .setProto false⟩,
  ⟨"WeakMap", 0, .weakMapProto, constructCollection "WeakMap" .weakMapProto true⟩,
  ⟨"WeakSet", 0, .weakSetProto, constructCollection "WeakSet" .weakSetProto false⟩,
  ⟨"Date", 7, .dateProto, constructDate⟩,
  ⟨"RegExp", 2, .patternProto, constructPattern⟩,
  ⟨"Error", 1, .errorProto, constructError .errorProto⟩,
  ⟨"TypeError", 1, .typeErrorProto, constructError .typeErrorProto⟩,
  ⟨"RangeError", 1, .rangeErrorProto, constructError .rangeErrorProto⟩,
  ⟨"SyntaxError", 1, .syntaxErrorProto, constructError .syntaxErrorProto⟩,
  ⟨"ReferenceError", 1, .referenceErrorProto, constructError .referenceErrorProto⟩,
  ⟨"EvalError", 1, .evalErrorProto, constructError .evalErrorProto⟩,
  ⟨"URIError", 1, .uriErrorProto, constructError .uriErrorProto⟩,
  ⟨"AggregateError", 2, .aggregateErrorProto, constructError .aggregateErrorProto⟩]

/-- Functions of the constructors themselves. -/
def staticShelves : List Shelf := [
  ⟨"Object", objectStatics⟩, ⟨"Array", arrayStatics⟩, ⟨"String", textStatics⟩,
  ⟨"Number", numberStatics⟩, ⟨"Symbol", symbolStatics⟩, ⟨"BigInt", bigintStatics⟩,
  ⟨"Promise", promiseStatics⟩, ⟨"Map", [⟨"groupBy", 2, groupedMap⟩]⟩, ⟨"Date", dateStatics⟩]

/-- Functions of the prototypes. -/
def protoShelves : List (Intrinsic × Shelf) := [
  (.objectProto, ⟨"Object.prototype", objectMethods⟩),
  (.functionProto, ⟨"Function.prototype", functionMethods⟩),
  (.arrayProto, ⟨"Array.prototype", arrayMethods⟩),
  (.stringProto, ⟨"String.prototype", textMethods⟩),
  (.numberProto, ⟨"Number.prototype", numberMethods⟩),
  (.booleanProto, ⟨"Boolean.prototype", booleanMethods⟩),
  (.symbolProto, ⟨"Symbol.prototype", symbolMethods⟩),
  (.bigintProto, ⟨"BigInt.prototype", bigintMethods⟩),
  (.promiseProto, ⟨"Promise.prototype", promiseMethods⟩),
  (.mapProto, ⟨"Map.prototype", mapMethods⟩),
  (.setProto, ⟨"Set.prototype", setMethods⟩),
  (.weakMapProto, ⟨"WeakMap.prototype", weakMapMethods⟩),
  (.weakSetProto, ⟨"WeakSet.prototype", weakSetMethods⟩),
  (.dateProto, ⟨"Date.prototype", dateMethods⟩),
  (.patternProto, ⟨"RegExp.prototype", patternMethods⟩),
  (.errorProto, ⟨"Error.prototype", errorMethods⟩),
  (.iteratorProto, ⟨"Iterator.prototype", iteratorFunctions⟩),
  (.arrayIteratorProto, ⟨"cursor", cursorFunctions⟩),
  (.stringIteratorProto, ⟨"cursor", cursorFunctions⟩),
  (.mapIteratorProto, ⟨"cursor", cursorFunctions⟩),
  (.setIteratorProto, ⟨"cursor", cursorFunctions⟩),
  (.generatorProto, ⟨"generator", generatorMethods⟩),
  (.streamProto, ⟨"stream.prototype", streamMethods⟩)]

/-- Objects of the global object that hold functions. -/
def namedShelves : List Shelf := [
  ⟨"Math", mathFunctions⟩, ⟨"JSON", jsonFunctions⟩, ⟨"Reflect", reflectFunctions⟩]

/-- Functions of the global object. -/
def globalShelf : Shelf := ⟨"global", globalFunctions⟩

/-- `Number` has these functions too. -/
def parseShelf : Shelf := ⟨"parse", parseFunctions⟩

/-- Getters of prototypes, with the key that each stands under. -/
def getters : List (Intrinsic × Key × NativeFunction) :=
  [(.mapProto, .text "size", ⟨"map size", 0, sizeGetter true⟩),
    (.setProto, .text "size", ⟨"set size", 0, sizeGetter false⟩),
    (.symbolProto, .text "description", ⟨"description", 0, symbolDescription⟩)] ++
  patternGetters.map fun name => (.patternProto, .text name, ⟨name, 0, patternGetter name⟩)

/-- Functions that are not found under their own name. -/
def specialFunctions : List NativeFunction := [
  ⟨"self", 0, fun c => return c.self⟩,
  ⟨"String iterator", 0, textIterator⟩,
  ⟨"hasInstance", 1, hasInstance⟩,
  ⟨"Date primitive", 1, datePrimitive⟩,
  ⟨"Symbol primitive", 1, fun c => return .symbol (← thisSymbol c)⟩,
  ⟨"nothing", 0, fun _ => return .undefined⟩]

/-- Every function of the library. -/
def shelves : List Shelf :=
  [⟨"constructor", constructors.map fun e => ⟨e.name, e.length, e.run⟩⟩,
    ⟨"promise", settlingFunctions⟩, ⟨"task", taskFunctions⟩, ⟨"stream", streamFunctions⟩,
    ⟨"afterwards", afterwardsFunctions⟩, ⟨"gathering", gatheringFunctions⟩,
    ⟨"proto", protoFunctions⟩, ⟨"getter", getters.map fun g => g.2.2⟩,
    ⟨"special", specialFunctions⟩, globalShelf, parseShelf] ++
  protoShelves.map (·.2) ++ staticShelves ++ namedShelves

/-- Finds a function by its owner and its name. -/
def find? (owner name : String) : Option NativeFunction :=
  shelves.findSome? fun s =>
    if s.owner == owner then s.functions.find? (·.name == name) else none

end PagePreview.Engine.Library
