import PagePreview.Engine.Evaluation
import PagePreview.Engine.Library.Objects

/-!
# Functions and errors of the library

Functions can be called with other arguments and bound to some. Errors are
objects with a name and a message.
-/

namespace PagePreview.Engine.Library

/-! ## Functions -/

/-- A function that calls another one with some arguments in front. -/
def bindFunction (c : NativeCall) : Run Value := do
  match c.self, ← c.self.body with
  | .object target, body =>
    if !body.isCallable then typeError "cannot bind `this` without a `[[Call]]` internal method"
    let name ← match ← getNamed target "name" with
      | .text s => pure s
      | _ => pure ""
    let length ← match ← getNamed target "length" with
      | .number x => pure x
      | _ => pure 0
    let args := c.arguments.drop 1
    let length := if length.isNaN then 0 else max 0 (length - Float.ofNat args.length)
    return .object (← allocate {
      body := .bound c.self (c.arg 0) args body.constructs, proto := (← object target).proto
      properties := #[
        (.text "length", .settled (.number length)),
        (.text "name", .settled (.text ("bound " ++ name)))] })
  | _, _ => typeError "cannot bind `this` without a `[[Call]]` internal method"

def functionText (c : NativeCall) : Run Value := do
  match c.self, ← c.self.body with
  | _, .closure f => return .text (sourceText f.env f.whole)
  | .object r, .native .. =>
    return .text ("function " ++ (← toText (← getNamed r "name")) ++ "() \x7b [native code] \x7d")
  | _, .bound .. => return .text "function () \x7b [native code] \x7d"
  | _, _ => typeError "not a function"

def functionMethods : List NativeFunction := [
  ⟨"call", 1, fun c => do
    let f ← callback c.self "not a callable function"
    call f (c.arg 0) (c.arguments.drop 1)⟩,
  ⟨"apply", 2, fun c => do
    let f ← callback c.self "not a callable function"
    let args ← if (c.arg 1).isNullish then pure [] else itemsOf (c.arg 1)
    call f (c.arg 0) args⟩,
  ⟨"bind", 1, bindFunction⟩,
  ⟨"toString", 0, functionText⟩]

def hasInstance (c : NativeCall) : Run Value := do
  if ← isCallable c.self then return .boolean (← isMadeBy maxProtos (c.arg 0) c.self)
  else return .boolean false

/-- A function whose parameters and body are texts. -/
def constructFunction (front : String) (c : NativeCall) : Run Value := do
  let texts ← c.arguments.mapM toText
  let parameters := String.intercalate "," texts.dropLast
  let text := "(" ++ front ++ " anonymous(" ++ parameters ++ "\n) \x7b\n" ++
    texts.getLast?.getD "" ++ "\n\x7d)"
  evaluateGlobally (.text text)

/-! ## Errors -/

/-- Makes an error of some kind. -/
def constructError (proto : Intrinsic) (c : NativeCall) : Run Value := do
  let (errors, args) : List Value × List Value := if proto == .aggregateErrorProto then
      (c.arguments.take 1, c.arguments.drop 1)
    else ([], c.arguments)
  let p ← match c.newTarget with
    | .object t =>
      match ← getNamed t "prototype" with
      | .object p => pure p
      | _ => pure proto.ref
    | _ => pure proto.ref
  let r ← allocate { body := .error, proto := some p }
  match args.headD .undefined with
  | .undefined => pure ()
  | v => defineOwn r (.text "message") (.quiet (.text (← toText v)))
  match args.getD 1 .undefined with
  | .object options =>
    if ← hasProperty options (.text "cause") then
      defineOwn r (.text "cause") (.quiet (← getNamed options "cause"))
  | _ => pure ()
  match errors with
  | [v] => defineOwn r (.text "errors") (.quiet (← listOf (← valuesOf v)))
  | _ => pure ()
  return .object r

/-- An error in one line. -/
def errorText (r : Ref) : Run String := do
  let name ← match ← getNamed r "name" with
    | .undefined => pure "Error"
    | v => toText v
  let message ← match ← getNamed r "message" with
    | .undefined => pure ""
    | v => toText v
  return if name.isEmpty then message else if message.isEmpty then name else name ++ ": " ++ message

def errorMethods : List NativeFunction := [
  ⟨"toString", 0, fun c => do
    match c.self with
    | .object r => return .text (← errorText r)
    | _ => typeError "'this' is not an Object"⟩]

/-! ## Reflection -/

def reflected (c : NativeCall) : Run Ref := do
  match c.arg 0 with
  | .object r => return r
  | _ => typeError "target must be an object"

def reflectFunctions : List NativeFunction := [
  ⟨"apply", 3, fun c => do
    let f ← callback (c.arg 0) "target must be a function"
    call f (c.arg 1) (← itemsOf (c.arg 2))⟩,
  ⟨"construct", 2, fun c => do
    if !(← isConstructor (c.arg 0)) then typeError "target must be a constructor"
    let newTarget := if c.arguments.length < 3 then c.arg 0 else c.arg 2
    if !(← isConstructor newTarget) then typeError "newTarget must be a constructor"
    construct (c.arg 0) (← itemsOf (c.arg 1)) newTarget⟩,
  ⟨"defineProperty", 3, fun c => do
    let r ← reflected c
    let k ← toKey (c.arg 1)
    return .boolean (← defineDescribed r k (← readDescription (c.arg 2)))⟩,
  ⟨"deleteProperty", 2, fun c => do
    let r ← reflected c
    return .boolean (← removeOwn r (← toKey (c.arg 1)))⟩,
  ⟨"get", 2, fun c => do
    let r ← reflected c
    let receiver := if c.arguments.length < 3 then c.arg 0 else c.arg 2
    getFrom r (← toKey (c.arg 1)) receiver⟩,
  ⟨"set", 3, fun c => do
    let r ← reflected c
    let receiver := if c.arguments.length < 4 then c.arg 0 else c.arg 3
    return .boolean (← setFrom r (← toKey (c.arg 1)) (c.arg 2) receiver)⟩,
  ⟨"getOwnPropertyDescriptor", 2, fun c => do
    match ← getOwn (← reflected c) (← toKey (c.arg 1)) with
    | some p => describe p
    | none => return .undefined⟩,
  ⟨"getPrototypeOf", 1, fun c => do protoValue (← reflected c)⟩,
  ⟨"setPrototypeOf", 2, fun c => do
    return .boolean (← setProto (← reflected c) (c.arg 1))⟩,
  ⟨"has", 2, fun c => do
    let r ← reflected c
    return .boolean (← hasProperty r (← toKey (c.arg 1)))⟩,
  ⟨"isExtensible", 1, fun c => do return .boolean (← object (← reflected c)).extensible⟩,
  ⟨"ownKeys", 1, fun c => do
    listOf ((← ownKeys (← reflected c)).filterMap fun
      | .hidden _ => none
      | k => some k.value)⟩,
  ⟨"preventExtensions", 1, fun c => do
    changeObject (← reflected c) fun o => { o with extensible := false }
    return .boolean true⟩]

end PagePreview.Engine.Library
