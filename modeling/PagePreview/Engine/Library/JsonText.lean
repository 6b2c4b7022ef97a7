import PagePreview.Engine.Library.Arrays
import PagePreview.Json.Printer
import PagePreview.Json.Reader
import PagePreview.Script.Parser

/-!
# JSON of the library

Values are written as JSON and read from it. What has no form in JSON is left
out of objects and is `null` in arrays. A text is read as JSON first, which
finds what is wrong with it, and then as an expression, which keeps the order
of its fields.
-/

namespace PagePreview.Engine.Library

open Script

/-! ## Writing -/

/-- How values are written. -/
structure Layout where
  replacer : Value := .undefined
  /-- The only keys that are written, if not all are. -/
  keys : Option (List String) := none
  gap : String := ""

/-- As many values may stand in one another. -/
def maxWriting : Nat := 10000

/-- Texts in brackets, on lines of their own if there is a gap. -/
def enclosed (l : Layout) (left right indent inner : String) (parts : List String) : String :=
  if parts.isEmpty then left ++ right
  else if l.gap.isEmpty then left ++ String.intercalate "," parts ++ right
  else
    left ++ "\n" ++ inner ++ String.intercalate (",\n" ++ inner) parts ++ "\n" ++ indent ++ right

/-- The value that is written for a property. -/
def replaced (l : Layout) (holder : Ref) (key : String) (v : Value) : Run Value := do
  let v ← match v with
    | .object _ | .bigint _ =>
      let f ← getOf v (.text "toJSON")
      if ← isCallable f then call f v [.text key] else pure v
    | v => pure v
  let v ← if ← isCallable l.replacer then call l.replacer (.object holder) [.text key, v]
    else pure v
  match ← v.body with
  | .wrapper (.number _) => return .number (← toNumber v)
  | .wrapper (.text _) => return .text (← toText v)
  | .wrapper (.boolean b) => return .boolean b
  | .wrapper (.bigint i) => return .bigint i
  | _ => return v

/-- Writes the value of a property; nothing if it has no form in JSON. -/
def writeProperty (l : Layout) : (bound : Nat) → (outer : List Ref) → (indent : String) →
    (holder : Ref) → (key : String) → Value → Run (Option String)
  | 0, _, _, _, _, _ => throw .tooDeep
  | bound + 1, outer, indent, holder, key, v => do
    match ← replaced l holder key v with
    | .null => return some "null"
    | .boolean b => return some (if b then "true" else "false")
    | .text s => return some (Json.quoted s)
    | .number x => return some (if Decimal.isFinite x then numberText x else "null")
    | .bigint _ => typeError "cannot serialize bigint to JSON"
    | .undefined | .symbol _ => return none
    | .object r =>
      if ← isCallable (.object r) then return none
      if outer.contains r then typeError "cyclic object value"
      let inner := indent ++ l.gap
      match ← bodyOf r with
      | .array _ =>
        let parts ← (List.range (← lengthOf r)).mapM fun i => do
          let text ← writeProperty l bound (r :: outer) inner r (natText i) (← itemAt r i)
          return text.getD "null"
        return some (enclosed l "[" "]" indent inner parts)
      | _ =>
        let keys ← match l.keys with
          | some keys => pure keys
          | none => listedKeys r
        let parts ← keys.filterMapM fun k => do
          let text ← writeProperty l bound (r :: outer) inner r k (← getNamed r k)
          return text.map fun t => Json.quoted k ++ (if l.gap.isEmpty then ":" else ": ") ++ t
        return some (enclosed l "\x7b" "\x7d" indent inner parts)

def layoutOf (c : NativeCall) : Run Layout := do
  let gap ← match c.arg 2, ← (c.arg 2).body with
    | .number x, _ => pure (some (Value.number x))
    | .text s, _ => pure (some (.text s))
    | v, .wrapper (.number _) => do pure (some (.number (← toNumber v)))
    | v, .wrapper (.text _) => do pure (some (.text (← toText v)))
    | _, _ => pure none
  let gap := match gap with
    | some (.number x) => String.ofList (List.replicate (min 10 (wholePart x).toNat) ' ')
    | some (.text s) => String.ofList (s.toList.take 10)
    | _ => ""
  let replacer := c.arg 1
  if ← isCallable replacer then return { replacer, gap }
  if ← isArray replacer then
    let keys ← (← itemsOf replacer).filterMapM fun v => do
      match v, ← v.body with
      | .text s, _ => return some s
      | .number x, _ => return some (numberText x)
      | v, .wrapper (.text _) | v, .wrapper (.number _) => return some (← toText v)
      | _, _ => return none
    return { keys := some keys.eraseDups, gap }
  return { gap }

def stringify (c : NativeCall) : Run Value := do
  let l ← layoutOf c
  let holder ← plainObject
  defineOwn holder (.text "") (.ofValue (c.arg 0))
  return (← writeProperty l maxWriting [] "" holder "" (c.arg 0)).elim .undefined Value.text

/-! ## Reading -/

mutual

/-- The value of an expression that is JSON. -/
def literalValue : Node → Run Value
  | .mk .null _ _ => return .null
  | .mk (.boolean b) _ _ => return .boolean b
  | .mk (.number t) _ _ => return .number (Numeral.value t)
  | .mk (.unary .minus) _ [.mk (.number t) _ _] => return .number (-(Numeral.value t))
  | .mk (.string s _) _ _ => return .text s
  | .mk .array _ items => do listOf (← literalValues items)
  | .mk .object _ fields => do
    let r ← plainObject
    literalFields r fields
    return .object r
  | .mk .paren _ [e] => literalValue e
  | .mk .expression _ [e] => literalValue e
  | _ => return .undefined

def literalValues : List Node → Run (List Value)
  | [] => return []
  | n :: ns => do
    let v ← literalValue n
    return v :: (← literalValues ns)

def literalFields (r : Ref) : List Node → Run Unit
  | [] => return ()
  | .mk (.property _ _ _) _ [key, e] :: ns => do
    defineOwn r (.text (key.string?.getD "")) (.ofValue (← literalValue e))
    literalFields r ns
  | _ :: ns => literalFields r ns

end

/-- Lets a function replace every value that has been read, the inner ones first. -/
def revive (f : Value) : (bound : Nat) → (holder : Ref) → (key : Key) → Run Value
  | 0, _, _ => throw .tooDeep
  | bound + 1, holder, key => do
    let v ← getProperty holder key
    match v with
    | .object r =>
      for k in (← listedKeys r) do
        match ← revive f bound r (.text k) with
        | .undefined => let _ ← removeOwn r (.text k)
        | w => let _ ← createOwn r (.text k) w
    | _ => pure ()
    call f (.object holder) [key.value, v]

def parseJson (c : NativeCall) : Run Value := do
  let text ← toText (c.arg 0)
  match Json.read text with
  | .error e => syntaxError e.message
  | .ok _ =>
    let v ← match parseIn {} false ("(" ++ text ++ ")") with
      | .ok p => literalValue (p.root.child 0)
      | .error _ => syntaxError "unexpected value"
    let f := c.arg 1
    if ← isCallable f then
      let holder ← plainObject
      defineOwn holder (.text "") (.ofValue v)
      revive f maxWriting holder (.text "")
    else return v

def jsonFunctions : List NativeFunction := [⟨"parse", 2, parseJson⟩, ⟨"stringify", 3, stringify⟩]

end PagePreview.Engine.Library
