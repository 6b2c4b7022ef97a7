import PagePreview.Engine.Iteration
import PagePreview.Engine.Library.Basic
import PagePreview.Engine.Operate

/-!
# Arrays of the library

The methods of arrays work on everything that has a length and numbered
properties. Places without an item are passed over by those that call a
function for each item, but for the newer ones, which see `undefined` there.
-/

namespace PagePreview.Engine.Library

open Text

/-! ## Reading and writing items -/

def lengthOf (r : Ref) : Run Nat := do toLength (← getNamed r "length")

def setLength (r : Ref) (n : Nat) : Run Unit := setNamed r "length" (numberValue n)

def itemAt (r : Ref) (i : Nat) : Run Value := getProperty r (.ofNat i)

def putItemAt (r : Ref) (i : Nat) (v : Value) : Run Unit := setProperty true r (.ofNat i) v

/-- Whether there is an item. -/
def hasItem (r : Ref) (i : Nat) : Run Bool := hasProperty r (.ofNat i)

/-- The item at a place, if there is one. -/
def itemAt? (r : Ref) (i : Nat) : Run (Option Value) := do
  if ← hasItem r i then return some (← itemAt r i) else return none

/-- The items of an object, some of them missing. -/
def itemsWithHoles (r : Ref) : Run (Array (Option Value)) := do
  let n ← lengthOf r
  match ← bodyOf r with
  | .array items =>
    if items.all Option.isSome then return items
    else return (← (List.range n).mapM (itemAt? r)).toArray
  | _ => return (← (List.range n).mapM (itemAt? r)).toArray

/-- Writes items into an object from its beginning, and sets its length. -/
def replaceItems (r : Ref) (items : Array (Option Value)) : Run Unit := do
  match ← bodyOf r with
  | .array _ =>
    if !(← object r).extensible then typeError "cannot add or delete a property of this object"
    changeBody r fun _ => .array items
  | _ =>
    for (v, i) in items.toList.zipIdx do
      match v with
      | some v => putItemAt r i v
      | none => let _ ← deleteProperty true r (.ofNat i)
    let n ← lengthOf r
    for i in List.range n do
      if items.size ≤ i then let _ ← deleteProperty true r (.ofNat i)
    setLength r items.size

/-- The place that an argument means, or one that is used if it is missing. -/
def placeArgument (c : NativeCall) (i n usual : Nat) : Run Nat := do
  match c.arg i with
  | .undefined => return usual
  | v => return relativeIndex (← toInteger v) n

/-! ## Calling a function for each item -/

/-- Goes through the items in order and stops when a result is there. -/
def scan {α : Type} (r : Ref) (places : List Nat) (holes : Bool)
    (visit : Nat → Value → Run (Option α)) : Run (Option α) :=
  iterate (fun places => do
    match places with
    | [] => return .inr none
    | i :: rest =>
      if !holes && !(← hasItem r i) then return .inl rest
      match ← visit i (← itemAt r i) with
      | some a => return .inr (some a)
      | none => return .inl rest) places

/-- The object and the length that a method works on, and the function it is given. -/
def begin (c : NativeCall) (message : String) : Run (Ref × Nat × (Nat → Value → Run Value)) := do
  let r ← toObject c.self
  let n ← lengthOf r
  let f ← callback (c.arg 0) message
  return (r, n, fun i v => call f (c.arg 1) [v, numberValue i, .object r])

def find (name : String) (backwards : Bool) (shape : Nat → Value → Value) (missing : Value)
    (c : NativeCall) : Run Value := do
  let (r, n, f) ← begin c ("Array.prototype." ++ name ++ ": predicate is not callable")
  let places := if backwards then (List.range n).reverse else List.range n
  let found ← scan r places true fun i v => do
    if (← f i v).truth then return some (shape i v) else return none
  return found.getD missing

/-- Hands a value on from item to item. -/
def reduce (name : String) (backwards : Bool) (c : NativeCall) : Run Value := do
  let r ← toObject c.self
  let n ← lengthOf r
  let f ← callback (c.arg 0) ("Array.prototype." ++ name ++ ": callback function is not callable")
  let places ← (if backwards then (List.range n).reverse else List.range n).filterM (hasItem r)
  let (start, places) ← match c.arguments, places with
    | _ :: v :: _, _ => pure (v, places)
    | _, i :: rest => pure (← itemAt r i, rest)
    | _, [] =>
      typeError ("Array.prototype." ++ name ++
        ": called on an empty array and with no initial value")
  iterate (fun ((acc, places) : Value × List Nat) => do
    match places with
    | [] => return .inr acc
    | i :: rest =>
      let acc ← call f .undefined [acc, ← itemAt r i, numberValue i, .object r]
      return .inl (acc, rest)) (start, places)

/-- A search for an item that is the same as a value. -/
def search (places : List Nat) (r : Ref) (v : Value) : Run Value := do
  let found ← scan r places false fun i x =>
    return if x.isSame v then some (numberValue i) else none
  return found.getD (.number (-1))

/-! ## Sorting -/

/-- The order in which items are sorted that are not compared by a function. -/
def textsLess (a b : Value) : Run Bool := do
  return unitsLess (Units.ofString (← toText a)) (Units.ofString (← toText b))

/-- Whether `a` has to stand behind `b`. -/
def standsBehind (compare a b : Value) : Run Bool := do
  match compare with
  | .undefined => textsLess b a
  | f => return 0 < (← toNumber (← call f .undefined [a, b]))

/-- Merges two sorted rows; of two that are equal, the one of the first row comes first. -/
def mergeBy (compare : Value) (as bs : List Value) : Run (List Value) :=
  iterate (fun ((as, bs, done) : List Value × List Value × List Value) => do
    match as, bs with
    | [], bs => return .inr (done.reverse ++ bs)
    | as, [] => return .inr (done.reverse ++ as)
    | a :: as, b :: bs =>
      if ← standsBehind compare a b then return .inl (a :: as, bs, b :: done)
      else return .inl (as, b :: bs, a :: done)) (as, bs, [])

/-- Sorts; `depth` is at least the number of times that the row can be halved. -/
def sortBy (compare : Value) : (depth : Nat) → List Value → Run (List Value)
  | 0, vs => return vs
  | _, [] => return []
  | _, [v] => return [v]
  | depth + 1, vs => do
    let half := vs.length / 2
    let front ← sortBy compare depth (vs.take half)
    let back ← sortBy compare depth (vs.drop half)
    mergeBy compare front back

/-- Sorts items: those that are undefined stand behind all others, and holes behind these. -/
def sorted (compare : Value) (items : Array (Option Value)) : Run (Array (Option Value)) := do
  let present := items.toList.filterMap id
  let (last, vs) := present.partition fun v => v matches .undefined
  let vs ← sortBy compare (vs.length.log2 + 2) vs
  let holes := Array.replicate (items.size - present.length) none
  return ((vs ++ last).map some).toArray ++ holes

def comparison (c : NativeCall) : Run Value := do
  match c.arg 0 with
  | .undefined => return .undefined
  | f => callback f "The comparison function must be either a function or undefined"

/-! ## Flattening and joining -/

/-- The items of an array with those of arrays inside it, down to a depth. -/
def flatten : (depth : Nat) → Ref → Run (List Value)
  | depth, r => do
    let items := (← itemsWithHoles r).toList.filterMap id
    match depth with
    | 0 => return items
    | depth + 1 =>
      let parts ← items.mapM fun v => do
        match v, ← v.body with
        | .object q, .array _ => flatten depth q
        | v, _ => return [v]
      return parts.flatten

/-- As many arrays may stand in one another when they are joined. -/
def maxNesting : Nat := 400

def joinItems (separator : String) (items : List Value) : Run String := do
  let texts ← items.mapM fun v => do
    if v.isNullish then return "" else toText v
  return String.intercalate separator texts

/-- Whether joining an array would come back to it. -/
def isJoining (r : Ref) : Run Bool := return (← get).joining.contains r

/-- The items of an object as one text. An array that is being joined already is left out. -/
def join (r : Ref) (separator : String) : Run String := do
  if ← isJoining r then return ""
  modify fun m => { m with joining := r :: m.joining }
  let leave : Run Unit := modify fun m => { m with joining := m.joining.drop 1 }
  let n ← lengthOf r
  let items ← (List.range n).mapM (itemAt r)
  let text ← (joinItems separator items).orElse fun s => do leave; throw s
  leave
  return text

/-- Whether a value is spread when it is joined to an array. -/
def isArray (v : Value) : Run Bool := return (← v.body) matches .array _

/-! ## The functions -/

def constructArray (c : NativeCall) : Run Value := do
  let v ← match c.arguments with
    | [.number x] =>
      match lengthOf? (.number x) with
      | some n =>
        if maxGap < n then rangeError "invalid array length"
        arrayOf (Array.replicate n none)
      | none => rangeError "invalid array length"
    | vs => listOf vs
  match v, c.newTarget with
  | .object r, .object t =>
    if t != c.function then
      match ← getNamed t "prototype" with
      | .object p => changeObject r fun o => { o with proto := some p }
      | _ => pure ()
  | _, _ => pure ()
  return v

def arrayFrom (c : NativeCall) : Run Value := do
  let f := c.arg 1
  if !(f matches .undefined) then let _ ← callback f "mapping function must be callable"
  let source := c.arg 0
  let values ← do
    let iterates ← if source.isNullish then pure false
      else pure !(← getOf source WellKnown.iterator.key).isNullish
    if iterates then valuesOf source else itemsOf (.object (← toObject source))
  match f with
  | .undefined => listOf values
  | f =>
    let mapped ← values.zipIdx.mapM fun (v, i) => call f (c.arg 2) [v, numberValue i]
    listOf mapped

def arrayStatics : List NativeFunction := [
  ⟨"isArray", 1, fun c => return .boolean (← isArray (c.arg 0))⟩,
  ⟨"of", 0, fun c => listOf c.arguments⟩,
  ⟨"from", 1, arrayFrom⟩]

/-- Takes away some items from a place on and puts others there; those taken away. -/
def splice (c : NativeCall) : Run Value := do
  let r ← toObject c.self
  let items ← itemsWithHoles r
  let start ← placeArgument c 0 items.size 0
  let count ← match c.arguments with
    | [] => pure 0
    | [_] => pure (items.size - start)
    | _ => pure (min (← toInteger (c.arg 1)).toNat (items.size - start))
  let put := (c.arguments.drop 2).map some
  replaceItems r (items.extract 0 start ++ put.toArray ++ items.extract (start + count) items.size)
  arrayOf (items.extract start (start + count))

def copyWithin (c : NativeCall) : Run Value := do
  let r ← toObject c.self
  let items ← itemsWithHoles r
  let n := items.size
  let target ← placeArgument c 0 n 0
  let start ← placeArgument c 1 n 0
  let stop ← placeArgument c 2 n n
  let part := (items.extract start stop).extract 0 (n - target)
  replaceItems r (items.extract 0 target ++ part ++ items.extract (target + part.size) n)
  return .object r

def changingMethods : List NativeFunction := [
  ⟨"push", 1, fun c => do
    let r ← toObject c.self
    match ← bodyOf r with
    | .array items =>
      if !(← object r).extensible then typeError "cannot add property to a non-extensible array"
      let n := items.size + c.arguments.length
      changeBody r fun
        | .array items => .array (items ++ (c.arguments.map some).toArray)
        | b => b
      return numberValue n
    | _ =>
      let n ← lengthOf r
      for (v, i) in c.arguments.zipIdx do putItemAt r (n + i) v
      setLength r (n + c.arguments.length)
      return numberValue (n + c.arguments.length)⟩,
  ⟨"pop", 0, fun c => do
    let r ← toObject c.self
    let items ← itemsWithHoles r
    replaceItems r items.pop
    return (items.back?.join).getD .undefined⟩,
  ⟨"shift", 0, fun c => do
    let r ← toObject c.self
    let items ← itemsWithHoles r
    replaceItems r (items.extract 1 items.size)
    return (items[0]?.join).getD .undefined⟩,
  ⟨"unshift", 1, fun c => do
    let r ← toObject c.self
    let items ← itemsWithHoles r
    replaceItems r ((c.arguments.map some).toArray ++ items)
    return numberValue (items.size + c.arguments.length)⟩,
  ⟨"splice", 2, splice⟩,
  ⟨"reverse", 0, fun c => do
    let r ← toObject c.self
    replaceItems r (← itemsWithHoles r).reverse
    return .object r⟩,
  ⟨"sort", 1, fun c => do
    let f ← comparison c
    let r ← toObject c.self
    replaceItems r (← sorted f (← itemsWithHoles r))
    return .object r⟩,
  ⟨"fill", 1, fun c => do
    let r ← toObject c.self
    let items ← itemsWithHoles r
    let start ← placeArgument c 1 items.size 0
    let stop ← placeArgument c 2 items.size items.size
    replaceItems r (items.mapIdx fun i v => if start ≤ i && i < stop then some (c.arg 0) else v)
    return .object r⟩,
  ⟨"copyWithin", 2, copyWithin⟩]

def visitingMethods : List NativeFunction := [
  ⟨"forEach", 1, fun c => do
    let (r, n, f) ← begin c "Array.prototype.forEach: invalid callback function"
    let _ ← scan (α := Unit) r (List.range n) false fun i v => do
      let _ ← f i v
      return none
    return .undefined⟩,
  ⟨"map", 1, fun c => do
    let (r, n, f) ← begin c "Array.prototype.map: Callbackfn is not callable"
    let items ← (List.range n).mapM fun i => do
      match ← itemAt? r i with
      | some v => return some (← f i v)
      | none => return none
    arrayOf items.toArray⟩,
  ⟨"filter", 1, fun c => do
    let (r, n, f) ← begin c "Array.prototype.filter: `callback` must be callable"
    let kept ← (List.range n).filterMapM fun i => do
      match ← itemAt? r i with
      | some v => if (← f i v).truth then return some v else return none
      | none => return none
    listOf kept⟩,
  ⟨"some", 1, fun c => do
    let (r, n, f) ← begin c "Array.prototype.some: callback is not callable"
    let found ← scan r (List.range n) false fun i v => do
      return if (← f i v).truth then some () else none
    return .boolean found.isSome⟩,
  ⟨"every", 1, fun c => do
    let (r, n, f) ← begin c "Array.prototype.every: callback is not callable"
    let found ← scan r (List.range n) false fun i v => do
      return if (← f i v).truth then none else some ()
    return .boolean found.isNone⟩,
  ⟨"find", 1, find "find" false (fun _ v => v) .undefined⟩,
  ⟨"findIndex", 1, find "findIndex" false (fun i _ => numberValue i) (.number (-1))⟩,
  ⟨"findLast", 1, find "findLast" true (fun _ v => v) .undefined⟩,
  ⟨"findLastIndex", 1, find "findLastIndex" true (fun i _ => numberValue i) (.number (-1))⟩,
  ⟨"reduce", 1, reduce "reduce" false⟩,
  ⟨"reduceRight", 1, reduce "reduceRight" true⟩,
  ⟨"flatMap", 1, fun c => do
    let (r, n, f) ← begin c "flatMap mapper function is not callable"
    let parts ← (List.range n).mapM fun i => do
      match ← itemAt? r i with
      | some v =>
        let w ← f i v
        match w, ← w.body with
        | .object q, .array _ => flatten 0 q
        | w, _ => return [w]
      | none => return []
    listOf parts.flatten⟩]

def readingMethods : List NativeFunction := [
  ⟨"at", 1, fun c => do
    let r ← toObject c.self
    let n ← lengthOf r
    let i ← toInteger (c.arg 0)
    let place := if i < 0 then i + n else i
    if place < 0 || (n : Int) ≤ place then return .undefined
    itemAt r place.toNat⟩,
  ⟨"concat", 1, fun c => do
    let r ← toObject c.self
    let mut all : Array (Option Value) := #[]
    for v in Value.object r :: c.arguments do
      match v, ← v.body with
      | .object q, .array _ => all := all ++ (← itemsWithHoles q)
      | v, _ => all := all.push (some v)
    arrayOf all⟩,
  ⟨"slice", 2, fun c => do
    let r ← toObject c.self
    let items ← itemsWithHoles r
    let start ← placeArgument c 0 items.size 0
    let stop ← placeArgument c 1 items.size items.size
    arrayOf (items.extract start stop)⟩,
  ⟨"join", 1, fun c => do
    let r ← toObject c.self
    let separator ← match c.arg 0 with
      | .undefined => pure ","
      | v => toText v
    return .text (← join r separator)⟩,
  ⟨"toString", 0, fun c => do
    let r ← toObject c.self
    let f ← getNamed r "join"
    if ← isCallable f then call f (.object r) []
    else return .text (← match c.self with
      | .object _ => pure "[object Object]"
      | v => toText v)⟩,
  ⟨"toLocaleString", 0, fun c => do
    let r ← toObject c.self
    let items ← (List.range (← lengthOf r)).mapM (itemAt r)
    let texts ← items.mapM fun v => do
      if v.isNullish then return "" else toText (← invoke v "toLocaleString" [])
    return .text (String.intercalate "," texts)⟩,
  ⟨"indexOf", 1, fun c => do
    let r ← toObject c.self
    let n ← lengthOf r
    let start ← placeArgument c 1 n 0
    search ((List.range n).drop start) r (c.arg 0)⟩,
  ⟨"lastIndexOf", 1, fun c => do
    let r ← toObject c.self
    let n ← lengthOf r
    let stop ← match c.arguments with
      | _ :: v :: _ => do
        let i ← toInteger v
        pure (if i < 0 then (i + n + 1).toNat else min (i.toNat + 1) n)
      | _ => pure n
    search ((List.range n).take stop).reverse r (c.arg 0)⟩,
  ⟨"includes", 1, fun c => do
    let r ← toObject c.self
    let n ← lengthOf r
    let start ← placeArgument c 1 n 0
    let found ← scan r ((List.range n).drop start) true fun _ v =>
      return if v.isSameOrNaN (c.arg 0) then some () else none
    return .boolean found.isSome⟩,
  ⟨"flat", 0, fun c => do
    let r ← toObject c.self
    let depth ← match c.arg 0 with
      | .undefined => pure 1
      | v => do pure (min (← toInteger v).toNat maxNesting)
    listOf (← flatten depth r)⟩,
  ⟨"toReversed", 0, fun c => do
    let items ← itemsOf (.object (← toObject c.self))
    listOf items.reverse⟩,
  ⟨"toSorted", 1, fun c => do
    let f ← comparison c
    let items ← itemsOf (.object (← toObject c.self))
    arrayOf (← sorted f (items.map some).toArray)⟩,
  ⟨"toSpliced", 2, fun c => do
    let items := (← itemsOf (.object (← toObject c.self))).toArray
    let start ← placeArgument c 0 items.size 0
    let count ← match c.arguments with
      | [] => pure 0
      | [_] => pure (items.size - start)
      | _ => do pure (min (← toInteger (c.arg 1)).toNat (items.size - start))
    listOf (items.extract 0 start ++ (c.arguments.drop 2).toArray ++
      items.extract (start + count) items.size).toList⟩,
  ⟨"with", 2, fun c => do
    let items ← itemsOf (.object (← toObject c.self))
    let i ← toInteger (c.arg 0)
    let place := if i < 0 then i + items.length else i
    if place < 0 || (items.length : Int) ≤ place then rangeError "invalid index for TypedArray"
    listOf (items.set place.toNat (c.arg 1))⟩,
  ⟨"keys", 0, fun c => do
    cursorOver .arrayIteratorProto (.object (← toObject c.self)) "keys"⟩,
  ⟨"values", 0, fun c => do
    cursorOver .arrayIteratorProto (.object (← toObject c.self)) "values"⟩,
  ⟨"entries", 0, fun c => do
    cursorOver .arrayIteratorProto (.object (← toObject c.self)) "entries"⟩]

def arrayMethods : List NativeFunction := changingMethods ++ visitingMethods ++ readingMethods

end PagePreview.Engine.Library
