import PagePreview.Script.Syntax

/-!
# Values and the machine that holds them

A `Value` is what an expression of a script has. Objects and scopes change, so
a value only refers to an object: a `Ref` is the number of an object in the
`Machine`, or of a scope. Nothing is ever removed from a machine, so a
reference stays good.

Functions are objects. Those of a script keep their code and the scope they
were made in; those of the library are known by an owner and a name, and may
hold some values of their own.
-/

namespace PagePreview.Engine

open Script (Node Routine)

/-- The number of an object or of a scope. -/
abbrev Ref := Nat

inductive Value where
  | undefined
  | null
  | boolean (b : Bool)
  | number (x : Float)
  | text (s : String)
  | bigint (i : Int)
  | symbol (id : Nat)
  | object (ref : Ref)
deriving Inhabited

/-- What a property is found by. Hidden keys are those of private names. -/
inductive Key where
  | text (s : String)
  | symbol (id : Nat)
  | hidden (id : Nat)
deriving DecidableEq, Inhabited

/-- A property has a value, or functions that are called for it. -/
inductive Slot where
  | data (value : Value) (writable : Bool)
  | accessor (get set : Value)
deriving Inhabited

structure Property where
  slot : Slot
  enumerable : Bool := true
  configurable : Bool := true
deriving Inhabited

namespace Property

/-- A property as an assignment makes it. -/
def ofValue (v : Value) : Property := ⟨.data v true, true, true⟩

/-- A property that is not listed. -/
def quiet (v : Value) : Property := ⟨.data v true, false, true⟩

/-- A property that cannot be changed. -/
def fixed (v : Value) : Property := ⟨.data v false, false, false⟩

/-- A property that is not listed and is changed only on purpose. -/
def settled (v : Value) : Property := ⟨.data v false, false, true⟩

end Property

/-! ## Functions -/

/-- The text that a node's span counts in. -/
abbrev Source := List Char

/-- How a function of a script is used. -/
inductive Manner where
  | plain
  | arrow
  | method
  | constructor (derived : Bool)
deriving DecidableEq

/-- A field of a class: its key, and the expression for its value. -/
structure Field where
  key : Key
  value : Node

/-- Where a piece of script stands. -/
structure Env where
  scope : Ref
  strict : Bool
  source : Source

structure Closure where
  env : Env
  parameters : List Node
  /-- Statements, or an expression. -/
  body : Node
  routine : Routine
  manner : Manner
  /-- The object whose prototype `super` is about. -/
  home : Option Ref := none
  fields : List Field := []
  /-- The private methods that instances get. -/
  hidden : List (Key × Property) := []
  /-- The node that the function was read from. -/
  whole : Node

/-! ## What objects are -/

/-- What is to be done once a promise is settled: a handler, or nothing of its own, and the
functions that settle the promise made from it. -/
structure Reaction where
  onFulfilled : Value
  onRejected : Value
  resolve : Value
  reject : Value

inductive Settlement where
  | pending (reactions : List Reaction)
  | fulfilled (value : Value)
  | rejected (reason : Value)

/-- Where a generator is. -/
inductive Progress where
  | waiting
  | running
  | done
deriving DecidableEq

/-- What an action that has paused is told. -/
inductive Signal where
  | next (value : Value)
  | fail (value : Value)
  | finish (value : Value)

/-- Somebody who waits for the next value of a generator, and what settles the promise for it. -/
structure Request where
  signal : Signal
  resolve : Value
  reject : Value

/-- What an object is besides its properties. -/
inductive Body where
  | plain
  | array (items : Array (Option Value))
  | closure (c : Closure)
  /-- A function of the library. -/
  | native (owner name : String) (constructs : Bool) (held : List Value)
  | bound (target self : Value) (arguments : List Value) (constructs : Bool)
  | error
  /-- A value that is not an object, as an object. -/
  | wrapper (v : Value)
  | date (time : Float)
  | pattern (body flags : String)
  | map (entries : Array (Option (Value × Value)))
  | set (entries : Array (Option (Value × Value)))
  | promise (s : Settlement)
  /-- Values to be visited: where they come from, how many have been, and in which form they are
  given. -/
  | cursor (target : Value) (position : Nat) (form : String)
  /-- A generator, and the number of the work that is left of it. -/
  | generator (work : Nat) (p : Progress)
  /-- A generator whose values are waited for. -/
  | stream (work : Nat) (p : Progress) (requests : List Request)
  | arguments
  | namespace (scope : Ref) (exports : List (String × String))

structure Object where
  body : Body := .plain
  proto : Option Ref := none
  properties : Array (Key × Property) := #[]
  extensible : Bool := true

instance : Inhabited Object := ⟨{}⟩

/-- Whether something can be called. -/
def Body.isCallable : Body → Bool
  | closure _ => true
  | native .. => true
  | bound .. => true
  | _ => false

/-- Whether something can be used with `new`. -/
def Body.constructs : Body → Bool
  | closure c =>
    match c.manner with
    | .plain => !c.routine.async && !c.routine.generator
    | .constructor _ => true
    | _ => false
  | native _ _ constructs _ => constructs
  | bound _ _ _ constructs => constructs
  | _ => false

/-! ## Scopes -/

/-- What a name stands for: nothing until it is initialized. -/
structure Binding where
  value : Option Value
  constant : Bool := false
  /-- Whether an assignment to a constant is passed over in silence. -/
  lenient : Bool := false

/-- What a call of a function sets besides names. -/
structure CallInfo where
  /-- What `this` stands for; nothing until the constructor of the base class has been called. -/
  self : Option Value
  function : Option Ref
  arguments : List Value := []
  newTarget : Value := .undefined
  home : Option Ref := none

structure Scope where
  parent : Option Ref := none
  bindings : List (String × Binding) := []
  /-- An object whose properties are names. -/
  object : Option Ref := none
  call : Option CallInfo := none
  /-- Whether variables declared with `var` belong here. -/
  holdsVariables : Bool := false

instance : Inhabited Scope := ⟨{}⟩

/-! ## Machines -/

inductive Job where
  /-- Runs a reaction to a promise. -/
  | react (r : Reaction) (fulfilled : Bool) (value : Value)
  /-- Lets something with a `then` of its own settle a promise. -/
  | adopt (promise thenable action : Value)
  /-- Runs a module that has been loaded. -/
  | evaluate (statements : List Node) (source : Source) (resolve reject : Value)

/-- A module that is to be loaded. -/
structure Import where
  address : String
  resolve : Value
  reject : Value

structure Machine where
  objects : Array Object := #[]
  scopes : Array Scope := #[]
  /-- The descriptions of symbols. -/
  symbols : Array (Option String) := #[]
  /-- Symbols that are found by a text. -/
  registered : List (String × Nat) := []
  jobs : List Job := []
  imports : List Import := []
  /-- How many calls are in progress. -/
  depth : Nat := 0
  /-- The time, in milliseconds. -/
  clock : Float := 0
  /-- What the next random number is made from. -/
  seed : Nat := 88172645463325252
  /-- The arrays that are being made into texts. -/
  joining : List Ref := []

/-- The objects that every machine begins with, in the order in which they are numbered. -/
inductive Intrinsic where
  | global
  | objectProto | functionProto | arrayProto | stringProto | numberProto | booleanProto
  | symbolProto | bigintProto
  | iteratorProto | arrayIteratorProto | stringIteratorProto | mapIteratorProto
  | setIteratorProto | generatorProto | streamProto
  | promiseProto | mapProto | setProto | weakMapProto | weakSetProto | dateProto | patternProto
  | errorProto | typeErrorProto | rangeErrorProto | syntaxErrorProto | referenceErrorProto
  | evalErrorProto | uriErrorProto | aggregateErrorProto
deriving DecidableEq

namespace Intrinsic

def ref (i : Intrinsic) : Ref := i.ctorIdx

def value (i : Intrinsic) : Value := .object i.ref

/-- How many there are. -/
def count : Nat := Intrinsic.aggregateErrorProto.ref + 1

end Intrinsic

/-- The scope whose names are the properties of the global object. -/
def globalObjectScope : Ref := 0

/-- The scope of what scripts declare without `var`. -/
def globalScope : Ref := 1

/-- The symbols that the language itself uses, in the order in which they are numbered. -/
inductive WellKnown where
  | iterator | asyncIterator | hasInstance | toPrimitive | toStringTag | species
deriving DecidableEq

namespace WellKnown

def id (s : WellKnown) : Nat := s.ctorIdx

def key (s : WellKnown) : Key := .symbol s.id

def name : WellKnown → String
  | iterator => "iterator"
  | asyncIterator => "asyncIterator"
  | hasInstance => "hasInstance"
  | toPrimitive => "toPrimitive"
  | toStringTag => "toStringTag"
  | species => "species"

def all : List WellKnown :=
  [iterator, asyncIterator, hasInstance, toPrimitive, toStringTag, species]

end WellKnown

end PagePreview.Engine
