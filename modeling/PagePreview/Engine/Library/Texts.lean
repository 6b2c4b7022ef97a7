import PagePreview.Engine.Library.Patterns
import PagePreview.Text.Composition
import PagePreview.Text.LetterCase

/-!
# Texts of the library

Places in a text count units of 16 bits. Going through a text gives its
characters.
-/

namespace PagePreview.Engine.Library

open Text

/-- The text that a method works on. -/
def selfText (c : NativeCall) : Run String := do
  match c.self with
  | .undefined | .null => typeError "cannot convert 'null' or 'undefined' to object"
  | v => toText v

def selfUnits (c : NativeCall) : Run (List Nat) := return Units.ofString (← selfText c)

def textArgument (c : NativeCall) (i : Nat) : Run (List Nat) :=
  return Units.ofString (← toText (c.arg i))

def unitsText (us : List Nat) : Value := .text (Units.toString us)

/-- The place where a part first stands, from some place on. -/
def placeOf? (part : List Nat) : (start : Nat) → (place : Nat) → List Nat → Option Nat
  | start, place, us =>
    if start ≤ place && part.isPrefixOf us then some place
    else
      match us with
      | [] => none
      | _ :: us => placeOf? part start (place + 1) us

/-- All places where a part stands; none of them overlap. -/
def placesOf (part us : List Nat) : List Nat :=
  go (us.length + 2) 0
where
  go : (bound start : Nat) → List Nat
    | 0, _ => []
    | bound + 1, start =>
      match placeOf? part start 0 us with
      | none => []
      | some i => i :: go bound (i + max 1 part.length)

/-- A text may not be longer. -/
def maxLength : Nat := Nat.pow 2 24

def padded (c : NativeCall) (atStart : Bool) : Run Value := do
  let us ← selfUnits c
  let n ← toLength (c.arg 0)
  let fill ← match c.arg 1 with
    | .undefined => pure [32]
    | _ => textArgument c 1
  if n ≤ us.length || fill.isEmpty then return unitsText us
  if maxLength < n then rangeError "string length exceeds limit"
  let missing := n - us.length
  let row := ((List.replicate (missing / fill.length + 1) fill).flatten).take missing
  return unitsText (if atStart then row ++ us else us ++ row)

/-- A text in one of the forms in which texts that read the same are the same. -/
def normalized (c : NativeCall) : Run Value := do
  let cs := Composition.undouble (← selfText c).toList
  let form ← match c.arg 0 with
    | .undefined => pure "NFC"
    | v => toText v
  let result := fun cs => Value.text (String.ofList cs)
  match form with
  | "NFC" => return result (Composition.compose cs)
  | "NFD" => return result (Composition.decompose cs)
  | "NFKC" => return result (Composition.compose (Composition.plain cs))
  | "NFKD" => return result (Composition.decompose (Composition.plain cs))
  | _ => rangeError "The normalization form should be one of NFC, NFD, NFKC, NFKD."

/-- The patterns and values that a text may not be searched for. -/
def refusePattern (c : NativeCall) (name : String) : Run Unit := do
  match ← (c.arg 0).body with
  | .pattern .. =>
    typeError ("First argument to String.prototype." ++ name ++
      " must not be a regular expression")
  | _ => return ()

/-- A whole number between two bounds. -/
def clamped (v : Value) (usual most : Nat) : Run Nat := do
  match v with
  | .undefined => return usual
  | v => return min (← toInteger v).toNat most

def replaceText (c : NativeCall) (all : Bool) : Run Value := do
  let s ← selfText c
  match ← pattern? (c.arg 0) with
  | some p =>
    if all && !p.global then
      typeError "String.prototype.replaceAll called with a non-global RegExp argument"
    replacePattern p s (c.arg 1)
  | none =>
    let part ← textArgument c 0
    let us := Units.ofString s
    let put := c.arg 1
    let function ← isCallable put
    let template ← if function then pure "" else toText put
    let places := if all then placesOf part us else (placeOf? part 0 0 us).toList
    let (text, place) ← places.foldlM (fun ((text, place) : String × Nat) i => do
      let after := us.drop (i + part.length)
      let new ← if function then
          toText (← call put .undefined [unitsText part, numberValue i, .text s])
        else
          expandMarks template.toList (Units.toString part) (Units.toString (us.take i))
            (Units.toString after) (fun _ => none) (fun _ => none)
      return (text ++ Units.toString ((us.drop place).take (i - place)) ++ new, i + part.length))
      ("", 0)
    return .text (text ++ Units.toString (us.drop place))

def splitText (c : NativeCall) : Run Value := do
  let s ← selfText c
  let limit ← match c.arg 1 with
    | .undefined => pure (Nat.pow 2 32 - 1)
    | v => do pure (Decimal.unsignedWord (← toNumber v))
  match ← pattern? (c.arg 0) with
  | some p => splitPattern p s limit
  | none =>
    match c.arg 0 with
    | .undefined => listOf ([Value.text s].take limit)
    | _ =>
      let part ← textArgument c 0
      let us := Units.ofString s
      if part.isEmpty then return ← listOf ((us.map fun u => unitsText [u]).take limit)
      let (parts, place) := (placesOf part us).foldl
        (fun ((parts, place) : List Value × Nat) i =>
          (parts ++ [unitsText ((us.drop place).take (i - place))], i + part.length)) ([], 0)
      listOf ((parts ++ [unitsText (us.drop place)]).take limit)

/-- The pattern that a value is, or stands for. -/
def asPattern (v : Value) (flags : String) : Run (Option Prepared) := do
  match ← pattern? v with
  | some p => return some p
  | none =>
    let args := match v with
      | .undefined => [Value.undefined, .text flags]
      | v => [v, .text flags]
    pattern? (← constructPattern { function := 0, self := .undefined, arguments := args })

def matchText (c : NativeCall) : Run Value := do
  let s ← selfText c
  match ← asPattern (c.arg 0) "" with
  | none => return .null
  | some p =>
    let units := subjectUnits p s
    if p.global then
      setLastIndex p 0
      match findAll p units with
      | [] => return .null
      | all => listOf (all.map fun f => groupText p units f[0]?.join)
    else
      match ← findNext p units with
      | some found => matchValue p s units found
      | none => return .null

def matchAll (c : NativeCall) : Run Value := do
  let s ← selfText c
  match ← asPattern (c.arg 0) "g" with
  | none => return .null
  | some p =>
    if !p.global then
      typeError "String.prototype.matchAll called with a non-global RegExp argument"
    let units := subjectUnits p s
    let all ← (findAll p units).mapM (matchValue p s units)
    cursorOver .arrayIteratorProto (← listOf all) "values"

def searchText (c : NativeCall) : Run Value := do
  let s ← selfText c
  match ← asPattern (c.arg 0) "" with
  | none => return .number (-1)
  | some p =>
    let units := subjectUnits p s
    match Matching.find? p.read p.options units 0 p.sticky with
    | some found => return numberValue (unitPlace p units ((found[0]?.join).elim 0 (·.1)))
    | none => return .number (-1)

def textsOfCharacters (c : NativeCall) : Run Value := do
  let cs ← c.arguments.mapM fun v => do
    let x ← toNumber v
    if !(x.floor == x) || x < 0 || 0x10FFFF < x then
      rangeError ("codepoint `" ++ numberText x ++ "` is not an integer")
    return x.toUInt64.toNat
  return unitsText (cs.flatMap fun n =>
    if n < 0x10000 then [n] else Units.ofChar (Char.ofNat n))

/-- The function that a tag in front of a template calls to get the text as it is written. -/
def rawText (c : NativeCall) : Run Value := do
  let texts ← toObject (c.arg 0)
  let raw ← itemsOf (.object (← toObject (← getNamed texts "raw")))
  let texts ← raw.mapM toText
  let values ← (c.arguments.drop 1).mapM toText
  let rec go : List String → List String → String
    | [], _ => ""
    | [t], _ => t
    | t :: ts, [] => t ++ go ts []
    | t :: ts, v :: vs => t ++ v ++ go ts vs
  return .text (go texts values)

def textStatics : List NativeFunction := [
  ⟨"fromCharCode", 1, fun c => do
    let us ← c.arguments.mapM fun v => return Decimal.unsignedWord (← toNumber v) % 0x10000
    return unitsText us⟩,
  ⟨"fromCodePoint", 1, textsOfCharacters⟩,
  ⟨"raw", 1, rawText⟩]

def thisText (c : NativeCall) : Run Value := do
  match c.self, ← c.self.body with
  | .text s, _ => return .text s
  | _, .wrapper (.text s) => return .text s
  | _, _ => typeError "'this' is not a string"

def partMethods : List NativeFunction := [
  ⟨"charAt", 1, fun c => do
    let us ← selfUnits c
    let i ← toInteger (c.arg 0)
    if i < 0 then return .text ""
    return (us[i.toNat]?).elim (.text "") fun u => unitsText [u]⟩,
  ⟨"charCodeAt", 1, fun c => do
    let us ← selfUnits c
    let i ← toInteger (c.arg 0)
    if i < 0 then return .number nan
    return (us[i.toNat]?).elim (.number nan) numberValue⟩,
  ⟨"codePointAt", 1, fun c => do
    let us ← selfUnits c
    let i ← toInteger (c.arg 0)
    if i < 0 then return .undefined
    match us.drop i.toNat with
    | [] => return .undefined
    | h :: l :: _ =>
      return numberValue (if Units.isHigh h && Units.isLow l then (Units.joined h l).toNat else h)
    | [h] => return numberValue h⟩,
  ⟨"at", 1, fun c => do
    let us ← selfUnits c
    let i ← toInteger (c.arg 0)
    let place := if i < 0 then i + us.length else i
    if place < 0 then return .undefined
    return (us[place.toNat]?).elim .undefined fun u => unitsText [u]⟩,
  ⟨"slice", 2, fun c => do
    let us ← selfUnits c
    let start := relativeIndex (← toInteger (c.arg 0)) us.length
    let stop ← match c.arg 1 with
      | .undefined => pure us.length
      | v => do pure (relativeIndex (← toInteger v) us.length)
    return unitsText ((us.drop start).take (stop - start))⟩,
  ⟨"substring", 2, fun c => do
    let us ← selfUnits c
    let a ← clamped (c.arg 0) 0 us.length
    let b ← clamped (c.arg 1) us.length us.length
    return unitsText ((us.drop (min a b)).take (max a b - min a b))⟩,
  ⟨"split", 2, splitText⟩]

def searchMethods : List NativeFunction := [
  ⟨"includes", 1, fun c => do
    let us ← selfUnits c
    refusePattern c "includes"
    let part ← textArgument c 0
    let start ← clamped (c.arg 1) 0 us.length
    return .boolean (placeOf? part start 0 us).isSome⟩,
  ⟨"startsWith", 1, fun c => do
    let us ← selfUnits c
    refusePattern c "startsWith"
    let part ← textArgument c 0
    let start ← clamped (c.arg 1) 0 us.length
    return .boolean (part.isPrefixOf (us.drop start))⟩,
  ⟨"endsWith", 1, fun c => do
    let us ← selfUnits c
    refusePattern c "endsWith"
    let part ← textArgument c 0
    let stop ← clamped (c.arg 1) us.length us.length
    return .boolean (part.isSuffixOf (us.take stop))⟩,
  ⟨"indexOf", 1, fun c => do
    let us ← selfUnits c
    let part ← textArgument c 0
    let start ← clamped (c.arg 1) 0 us.length
    return (placeOf? part start 0 us).elim (.number (-1)) numberValue⟩,
  ⟨"lastIndexOf", 1, fun c => do
    let us ← selfUnits c
    let part ← textArgument c 0
    let x ← toNumber (c.arg 1)
    let most := if x.isNaN then us.length else min (wholePart x).toNat us.length
    let found := ((List.range (most + 1)).reverse).find? fun i => part.isPrefixOf (us.drop i)
    return found.elim (.number (-1)) numberValue⟩,
  ⟨"match", 1, matchText⟩,
  ⟨"matchAll", 1, matchAll⟩,
  ⟨"search", 1, searchText⟩,
  ⟨"replace", 2, (replaceText · false)⟩,
  ⟨"replaceAll", 2, (replaceText · true)⟩,
  ⟨"localeCompare", 1, fun c => do
    let s ← selfText c
    let t ← toText (c.arg 0)
    return .number (if s < t then -1 else if s == t then 0 else 1)⟩]

def changeMethods : List NativeFunction := [
  ⟨"concat", 1, fun c => do
    let s ← selfText c
    let parts ← c.arguments.mapM toText
    return .text (s ++ String.join parts)⟩,
  ⟨"padEnd", 1, (padded · false)⟩,
  ⟨"padStart", 1, (padded · true)⟩,
  ⟨"repeat", 1, fun c => do
    let s ← selfText c
    let n ← toInteger (c.arg 0)
    if n < 0 || (maxLength : Int) < n * max 1 s.length then
      rangeError "repeat count must be a positive finite number that doesn't overflow the maximum string length (2^32 - 1)"
    return .text (String.join (List.replicate n.toNat s))⟩,
  ⟨"toLowerCase", 0, fun c => do
    return .text (String.ofList (inSmallLetters (← selfText c).toList))⟩,
  ⟨"toUpperCase", 0, fun c => do
    return .text (String.ofList (inCapitals (← selfText c).toList))⟩,
  ⟨"toLocaleLowerCase", 0, fun c => do
    return .text (String.ofList (inSmallLetters (← selfText c).toList))⟩,
  ⟨"toLocaleUpperCase", 0, fun c => do
    return .text (String.ofList (inCapitals (← selfText c).toList))⟩,
  ⟨"trim", 0, fun c => do return .text (String.ofList (trimGaps (← selfText c).toList))⟩,
  ⟨"trimStart", 0, fun c => do
    return .text (String.ofList ((← selfText c).toList.dropWhile isGap))⟩,
  ⟨"trimEnd", 0, fun c => do
    return .text (String.ofList (dropEndWhile isGap (← selfText c).toList))⟩,
  ⟨"normalize", 0, normalized⟩,
  ⟨"isWellFormed", 0, fun c => do
    let _ ← selfText c
    return .boolean true⟩,
  ⟨"toWellFormed", 0, fun c => return .text (← selfText c)⟩,
  ⟨"toString", 0, thisText⟩,
  ⟨"valueOf", 0, thisText⟩]

def textMethods : List NativeFunction := partMethods ++ searchMethods ++ changeMethods

def textIterator (c : NativeCall) : Run Value := do
  cursorOver .stringIteratorProto (.text (← selfText c)) "values"

def constructText (c : NativeCall) : Run Value := do
  let s ← match c.arguments, c.isNew with
    | [], _ => pure ""
    | .symbol id :: _, false =>
      pure ("Symbol(" ++ ((← get).symbols.getD id none).getD "" ++ ")")
    | v :: _, _ => toText v
  if c.isNew then return .object (← toObject (.text s)) else return .text s

end PagePreview.Engine.Library
