import PagePreview.Engine.Convert

/-!
# Functions of the library

The library is a table of functions. A function is found by its owner, which
is the object that it belongs to, and its name. It gets what it has been
called with as a `NativeCall`.
-/

namespace PagePreview.Engine

/-- What a function of the library is called with. -/
structure NativeCall where
  function : Ref
  self : Value
  arguments : List Value
  /-- The function that `new` has been used with. -/
  newTarget : Value := .undefined
  /-- The values that the function has been made with. -/
  held : List Value := []

namespace NativeCall

/-- An argument; one that is missing is `undefined`. -/
def arg (c : NativeCall) (i : Nat) : Value := c.arguments.getD i .undefined

/-- Whether `new` has been used. -/
def isNew (c : NativeCall) : Bool := !c.newTarget.isNullish

end NativeCall

structure NativeFunction where
  name : String
  length : Nat
  run : NativeCall → Run Value

/-- The functions of one owner. -/
structure Shelf where
  owner : String
  functions : List NativeFunction

/-- Something that `new` is used with, and the functions of its own. -/
structure ConstructorEntry where
  name : String
  length : Nat
  proto : Intrinsic
  run : NativeCall → Run Value

/-- Puts the functions of a shelf into an object. -/
def Shelf.install (s : Shelf) (r : Ref) : Run Unit := do
  for f in s.functions do
    let v ← nativeFunction s.owner f.name f.length
    changeObject r (·.store (.text f.name) (.quiet v))

/-- Puts a getter of the library into an object. -/
def installGetter (r : Ref) (owner name : String) (k : Key) : Run Unit := do
  let f ← nativeFunction owner name 0 [] ("get " ++ (← k.shown))
  changeObject r (·.store k ⟨.accessor f .undefined, false, true⟩)

/-- A value that a function needs to be one that can be called. -/
def callback (v : Value) (message : String) : Run Value := do
  if ← isCallable v then return v else typeError message

def numberValue (n : Nat) : Value := .number (Float.ofNat n)

end PagePreview.Engine
