import PagePreview.Engine.Evaluation
import PagePreview.Engine.Iteration
import PagePreview.Engine.Library.Numbers
import PagePreview.Text.Hex
import PagePreview.Text.Utf8

/-!
# Functions without an owner, and iterators

The global functions evaluate texts, look at numbers, and write texts as parts
of addresses.
-/

namespace PagePreview.Engine.Library

open Text

/-! ## Addresses -/

/-- Marks that no part of an address needs to escape. -/
def plainMarks : List Char := "-_.!~*'()".toList

/-- Marks that have a meaning in an address. -/
def addressMarks : List Char := ";/?:@&=+$,#".toList

def escapeByte (b : UInt8) : List Char := '%' :: Hex.byteUpper b

def encodeAddress (kept : List Char) (s : String) : String :=
  String.ofList (s.toList.flatMap fun c =>
    if c.isAlphanum || plainMarks.contains c || kept.contains c then [c]
    else (Utf8.encode [c]).flatMap escapeByte)

def uriError {α : Type} (message : String) : Run α := do
  throwValue (← makeError Intrinsic.uriErrorProto.ref message)

/-- The byte of an escape, and what follows it. -/
def escapedByte (cs : List Char) : Run (UInt8 × List Char) := do
  match cs with
  | '%' :: h :: l :: rest =>
    match Hex.value? h, Hex.value? l with
    | some h, some l => return (UInt8.ofNat (16 * h + l), rest)
    | _, _ => uriError "invalid hexadecimal digit found"
  | _ => uriError "invalid escape character found"

/-- How many bytes a character takes that begins with a byte. -/
def byteCount (b : UInt8) : Nat :=
  if b < 0x80 then 1 else if b < 0xC0 then 0 else if b < 0xE0 then 2 else if b < 0xF0 then 3
  else if b < 0xF8 then 4 else 0

def escapedBytes : (count : Nat) → List Char → Run (List UInt8 × List Char)
  | 0, cs => return ([], cs)
  | count + 1, cs => do
    let (b, cs) ← escapedByte cs
    let (bs, cs) ← escapedBytes count cs
    return (b :: bs, cs)

def decodeAddress (kept : List Char) (s : String) : Run String := do
  iterate (fun ((cs, done) : List Char × String) => do
    match cs with
    | [] => return .inr done
    | '%' :: _ =>
      let (b, _) ← escapedByte cs
      match byteCount b with
      | 0 => uriError "invalid UTF-8 encoding found"
      | n =>
        let (bs, rest) ← escapedBytes n cs
        match Utf8.decode? bs with
        | .ok [c] =>
          if kept.contains c then return .inl (rest, done ++ String.ofList (cs.take 3))
          else return .inl (rest, done.push c)
        | _ => uriError "invalid UTF-8 encoding found"
    | c :: cs => return .inl (cs, done.push c)) (s.toList, "")

/-! ## Global functions -/

def globalFunctions : List NativeFunction := [
  ⟨"eval", 1, fun c => evaluateGlobally (c.arg 0)⟩,
  ⟨"isFinite", 1, fun c => return .boolean (Decimal.isFinite (← toNumber (c.arg 0)))⟩,
  ⟨"isNaN", 1, fun c => return .boolean (← toNumber (c.arg 0)).isNaN⟩,
  ⟨"encodeURIComponent", 1, fun c => return .text (encodeAddress [] (← toText (c.arg 0)))⟩,
  ⟨"encodeURI", 1, fun c => return .text (encodeAddress addressMarks (← toText (c.arg 0)))⟩,
  ⟨"decodeURIComponent", 1, fun c => return .text (← decodeAddress [] (← toText (c.arg 0)))⟩,
  ⟨"decodeURI", 1, fun c => return .text (← decodeAddress addressMarks (← toText (c.arg 0)))⟩]

/-! ## Iterators -/

def cursorFunctions : List NativeFunction := [⟨"next", 0, fun c => cursorNext c.self⟩]

/-- What a method of iterators makes of the values that it is given. -/
def gathered (c : NativeCall) (step : Nat → Value → Run (List Value)) : Run Value := do
  let (_, vs) ← foldValues c.self (fun ((i, vs) : Nat × List Value) v => do
    return (i + 1, vs ++ (← step i v))) (0, [])
  cursorOver .arrayIteratorProto (← listOf vs) "values"

def iteratorFunction (c : NativeCall) : Run (Nat → Value → Run Value) := do
  let f ← callback (c.arg 0) "not a callable function"
  return fun i v => call f .undefined [v, numberValue i]

/-- Takes so many values of an iterator. -/
def takeValues (it : Iteration) : (count : Nat) → Run (List Value)
  | 0 => do it.close; return []
  | count + 1 => do
    match ← it.step with
    | some v => return v :: (← takeValues it count)
    | none => return []

/-- An iterator that is going through its values. -/
def thisIteration (c : NativeCall) : Run Iteration := do
  match c.self with
  | .object r => return ⟨c.self, ← getNamed r "next"⟩
  | _ => typeError "'this' is not an Object"

def iteratorFunctions : List NativeFunction := [
  ⟨"map", 1, fun c => do
    let f ← iteratorFunction c
    gathered c fun i v => return [← f i v]⟩,
  ⟨"filter", 1, fun c => do
    let f ← iteratorFunction c
    gathered c fun i v => do if (← f i v).truth then return [v] else return []⟩,
  ⟨"take", 1, fun c => do
    let n ← toInteger (c.arg 0)
    if n < 0 then rangeError "limit must be positive"
    let vs ← takeValues (← thisIteration c) (min n.toNat (Nat.pow 2 30))
    cursorOver .arrayIteratorProto (← listOf vs) "values"⟩,
  ⟨"drop", 1, fun c => do
    let n ← toInteger (c.arg 0)
    if n < 0 then rangeError "limit must be positive"
    let vs ← valuesOf c.self
    cursorOver .arrayIteratorProto (← listOf (vs.drop n.toNat)) "values"⟩,
  ⟨"flatMap", 1, fun c => do
    let f ← iteratorFunction c
    gathered c fun i v => do valuesOf (← f i v)⟩,
  ⟨"toArray", 0, fun c => do listOf (← valuesOf c.self)⟩,
  ⟨"forEach", 1, fun c => do
    let f ← iteratorFunction c
    let _ ← foldValues c.self (fun (i : Nat) v => do
      let _ ← f i v
      return i + 1) 0
    return .undefined⟩,
  ⟨"some", 1, fun c => do
    let f ← iteratorFunction c
    return .boolean (← (← valuesOf c.self).zipIdx.anyM fun (v, i) => return (← f i v).truth)⟩,
  ⟨"every", 1, fun c => do
    let f ← iteratorFunction c
    return .boolean (← (← valuesOf c.self).zipIdx.allM fun (v, i) => return (← f i v).truth)⟩,
  ⟨"find", 1, fun c => do
    let f ← iteratorFunction c
    for (v, i) in (← valuesOf c.self).zipIdx do
      if (← f i v).truth then return v
    return .undefined⟩,
  ⟨"reduce", 1, fun c => do
    let f ← callback (c.arg 0) "not a callable function"
    match c.arguments, ← valuesOf c.self with
    | _ :: v :: _, vs => vs.foldlM (fun a v => call f .undefined [a, v]) v
    | _, v :: vs => vs.foldlM (fun a v => call f .undefined [a, v]) v
    | _, [] => typeError "cannot reduce empty iterator with no initial value"⟩]

end PagePreview.Engine.Library
