import PagePreview.Engine.Convert

/-!
# Values as people see them

What a script has thrown is shown to people without running any of its code:
getters are not called, and an object that holds itself is shown once.
-/

namespace PagePreview.Engine

/-- The value of a property, if it is a plain one. -/
def plainProperty? (r : Ref) (name : String) : Run (Option Value) := do
  match ← findProperty r (.text name) with
  | some (_, ⟨.data v _, _, _⟩) => return some v
  | _ => return none

/-- A number with the sign of zero. -/
def signedText (x : Float) : String :=
  if x == 0 && Decimal.isNegative x then "-0" else numberText x

/-- A value that is no object. -/
def showPrimitive : Value → Run String
  | .undefined => return "undefined"
  | .null => return "null"
  | .boolean b => return if b then "true" else "false"
  | .number x => return signedText x
  | .text s => return "\"" ++ s ++ "\""
  | .bigint i => return String.ofList (Decimal.intDigits i) ++ "n"
  | .symbol id => return "Symbol(" ++ ((← get).symbols.getD id none).getD "" ++ ")"
  | .object _ => return "[object]"

/-- A text stands for itself, and any other value is shown. -/
def showName (v : Value) : Run String := do
  match v with
  | .text s => return s
  | v => showPrimitive v

def showError (r : Ref) : Run String := do
  let name ← match ← plainProperty? r "name" with
    | some v => showName v
    | none => pure "<error>"
  let message ← match ← plainProperty? r "message" with
    | some v => showName v
    | none => pure ""
  return if name.isEmpty then message else if message.isEmpty then name else name ++ ": " ++ message

/-- A text that is moved to the right, so that it ends at a column. -/
def alignedAt (width : Nat) (s : String) : String :=
  String.ofList (List.replicate (width - s.length) ' ') ++ s

/-- As deep are objects shown. -/
def maxShown : Nat := 200

/-- The properties of an object, one in each line. -/
def showProperties : (bound : Nat) → (outer : List Ref) → (indent : Nat) → Value → Run String
  | 0, _, _, _ => return "[Cycle]"
  | bound + 1, outer, indent, v => do
    match v with
    | .object r =>
      if outer.contains r then return "[Cycle]"
      let lines ← (← ownKeys r).mapM fun k => do
        let shown ← match (← getOwn r k).map Property.slot with
          | some (.data v _) => showProperties bound (r :: outer) (indent + 4) v
          | some (.accessor g s) => do
            pure (match g.isNullish, s.isNullish with
              | false, false => "Getter & Setter"
              | false, true => "Getter"
              | true, false => "Setter"
              | true, true => "No Getter/Setter")
          | none => pure "undefined"
        return alignedAt indent (← k.shown) ++ ": " ++ shown
      return "\x7b\n" ++ String.intercalate ",\n" lines ++ "\n" ++
        String.ofList (List.replicate (indent - 4) ' ') ++ "\x7d"
    | v => showPrimitive v

def showFunction (r : Ref) (constructs : Bool) : Run String := do
  let name ← match ← plainProperty? r "name" with
    | some (.text s) => pure s
    | _ => pure ""
  if constructs then
    return "[class " ++ (if name.isEmpty then "(anonymous)" else name) ++ "]"
  else return if name.isEmpty then "[Function (anonymous)]" else "[Function: " ++ name ++ "]"

/-- As many items of an array are shown. -/
def maxItems : Nat := 100

/-- A value, in which other objects stand only if `children` allows it. -/
def showWithin : (bound : Nat) → (children : Bool) → Value → Run String
  | 0, _, _ => return "..."
  | bound + 1, children, v => do
    match v with
    | .object r =>
      match ← bodyOf r with
      | .error => showError r
      | .array items =>
        if items.isEmpty then return "[]"
        if !children then return "Array(" ++ natText items.size ++ ")"
        let parts ← (items.toList.take maxItems).mapM fun
          | some v => showWithin bound false v
          | none => return "<empty>"
        let more := if maxItems < items.size then ", ..." else ""
        return "[ " ++ String.intercalate ", " parts ++ more ++ " ]"
      | .map es =>
        let es := es.toList.filterMap id
        if es.isEmpty then return "Map(0)"
        let parts ← es.mapM fun (k, v) => do
          return (← showWithin bound false k) ++ " → " ++ (← showWithin bound false v)
        return "Map \x7b " ++ String.intercalate ", " parts ++ " \x7d"
      | .set es =>
        let es := es.toList.filterMap id
        if es.isEmpty then return "Set(0)"
        let parts ← es.mapM fun (v, _) => showWithin bound false v
        return "Set \x7b " ++ String.intercalate ", " parts ++ " \x7d"
      | .wrapper (.text s) => return "String \x7b \"" ++ s ++ "\" \x7d"
      | .wrapper (.number x) => return "Number \x7b " ++ signedText x ++ " \x7d"
      | .wrapper (.boolean b) => return "Boolean \x7b " ++ (if b then "true" else "false") ++ " \x7d"
      | .promise (.pending _) => return "Promise \x7b <pending> \x7d"
      | .promise (.fulfilled v) =>
        return "Promise \x7b " ++ (← showWithin bound false v) ++ " \x7d"
      | .promise (.rejected v) =>
        return "Promise \x7b <rejected> " ++ (← showWithin bound false v) ++ " \x7d"
      | body =>
        if body.isCallable then showFunction r body.constructs
        else showProperties maxShown [] 4 v
    | v => showPrimitive v

/-- A value as it is shown. -/
def showValue (v : Value) : Run String := showWithin maxShown true v

/-- What is told when something is nested too deeply. -/
def tooDeepText : String := "RuntimeLimit: exceeded maximum number of recursive calls"

end PagePreview.Engine
