import PagePreview.Engine.Value

/-!
# Actions of a machine

A `Run` is an action that changes a machine and gives something, or stops. It
stops with a value that was thrown, which a script can catch, or because the
work is nested too deeply, which it cannot.

An action may also pause in the middle, as generators and asynchronous
functions do. What is left of it is then a function from what it is told to go
on with. Such a function cannot be a part of the machine that it works on, so
it is handed to whoever runs the action (`Outcome.parked`), and the machine
knows it by a number (`Outcome.woken`).

Calls, expressions and statements occur within each other. An action reaches
them through an `Interpreter`, which is handed to it; where the interpreter
comes from is said in one place.
-/

namespace PagePreview.Engine

open Script (Node)

/-- Why an action does not come to its end. -/
inductive Stop where
  | thrown (value : Value)
  /-- A generator is told to end; no handler is asked, but what has to be done finally is done. -/
  | finished (value : Value)
  | tooDeep
deriving Inhabited

/-- How a statement ends. The value is that of the last expression, if there has been one. -/
inductive Completion where
  | normal (value : Option Value)
  /-- It leaves a loop or a statement with a label. -/
  | leave (label : Option String) (value : Option Value)
  /-- It goes on with the next round of a loop. -/
  | next (label : Option String) (value : Option Value)
  | give (value : Value)
deriving Inhabited

/-- Why an action pauses. -/
inductive Pause where
  /-- It waits for a promise. -/
  | await (promise : Value)
  /-- It hands out a value. -/
  | yield (value : Value)

/-- What work that was put aside comes to when it is woken. -/
inductive Reply where
  | gave (value : Value)
  | paused (p : Pause)
  | stopped (s : Stop)

/-- What becomes of an action that gives an `α` in the end, where `ω` is work put aside. -/
inductive Outcome (ω α : Type) where
  | done (a : α) (m : Machine)
  | stopped (s : Stop) (m : Machine)
  /-- It waits for what it is told. -/
  | paused (p : Pause) (m : Machine) (go : Signal → Machine → Outcome ω α)
  /-- It puts work aside and goes on with the number by which the work is known. -/
  | parked (work : ω) (m : Machine) (go : Nat → Machine → Outcome ω α)
  /-- It lets work go on that was put aside. -/
  | woken (work : Nat) (s : Signal) (m : Machine) (go : Reply → Machine → Outcome ω α)

/-- Work that can be put aside. -/
inductive Work where
  | mk (go : Signal → Machine → Outcome Work Value)

instance {α : Type} : Inhabited (Outcome Work α) := ⟨.stopped .tooDeep {}⟩

/-- Goes on after an action, however it has ended. -/
def Outcome.after {ω α β : Type} (onDone : α → Machine → Outcome ω β)
    (onStop : Stop → Machine → Outcome ω β) : Outcome ω α → Outcome ω β
  | .done a m => onDone a m
  | .stopped s m => onStop s m
  | .paused p m go => .paused p m fun s m => (go s m).after onDone onStop
  | .parked w m go => .parked w m fun n m => (go n m).after onDone onStop
  | .woken n s m go => .woken n s m fun r m => (go r m).after onDone onStop

/-- An action, once it has an interpreter. -/
abbrev Core (α : Type) := Machine → Outcome Work α

/-- The actions that occur within each other. -/
structure Interpreter where
  call : (function self : Value) → (arguments : List Value) → Core Value
  construct : (function : Value) → (arguments : List Value) → (newTarget : Value) → Core Value
  evaluate : Env → Node → Core Value
  /-- Runs a statement that has labels. -/
  execute : Env → (labels : List String) → Node → Core Completion

def Run (α : Type) := Interpreter → Core α

namespace Run

variable {α β : Type}

@[inline] def give (a : α) : Run α := fun _ m => .done a m

@[inline] def andThen (x : Run α) (f : α → Run β) : Run β := fun i m =>
  match x i m with
  | .done a m => f a i m
  | .stopped s m => .stopped s m
  | other => other.after (fun a m => f a i m) .stopped

/-- Does something about the way in which an action stops. -/
@[inline] def orElse (x : Run α) (f : Stop → Run α) : Run α := fun i m =>
  match x i m with
  | .done a m => .done a m
  | .stopped s m => f s i m
  | other => other.after .done fun s m => f s i m

instance : Monad Run where
  pure := give
  bind := andThen

instance : MonadStateOf Machine Run where
  get := fun _ m => .done m m
  set m := fun _ _ => .done () m
  modifyGet f := fun _ m => let (a, m) := f m; .done a m

instance : MonadExceptOf Stop Run where
  throw s := fun _ m => .stopped s m
  tryCatch := orElse

instance : Inhabited (Run α) := ⟨throw .tooDeep⟩

end Run

/-- Calls a function. -/
def call (f self : Value) (args : List Value) : Run Value := fun i => i.call f self args

def construct (f : Value) (args : List Value) (newTarget : Value := f) : Run Value := fun i =>
  i.construct f args newTarget

def evaluate (env : Env) (n : Node) : Run Value := fun i => i.evaluate env n

def execute (env : Env) (n : Node) (labels : List String := []) : Run Completion := fun i =>
  i.execute env labels n

/-- Does one step after the other until one of them gives a result; `bound` is more often than
there ever are steps. -/
def iterateUpTo {σ α : Type} (bound : Nat) (step : σ → Run (σ ⊕ α)) (s : σ) : Run α :=
  match bound with
  | 0 => throw .tooDeep
  | bound + 1 => fun i m =>
    match step s i m with
    | .done (.inr a) m => .done a m
    | .done (.inl s) m => iterateUpTo bound step s i m
    | .stopped e m => .stopped e m
    | other => other.after
      (fun r m => match r with
        | .inr a => .done a m
        | .inl s => iterateUpTo bound step s i m)
      .stopped

/-- Does one step after the other until one of them gives a result. -/
def iterate {σ α : Type} (step : σ → Run (σ ⊕ α)) (s : σ) : Run α := iterateUpTo (Nat.pow 2 40) step s

/-- What an action throws, or what it gives. -/
def catching {α : Type} (action : Run α) : Run (Except Value α) :=
  Run.orElse (do return .ok (← action)) fun
    | .thrown v => return .error v
    | s => throw s

def throwValue {α : Type} (v : Value) : Run α := throw (.thrown v)

/-! ## Pauses -/

/-- Pauses until something is told. -/
def pauseRaw (p : Pause) : Run Signal := fun _ m => .paused p m fun s m => .done s m

/-- Does what is told. -/
def obey : Signal → Run Value
  | .next v => return v
  | .fail v => throwValue v
  | .finish v => throw (.finished v)

/-- Pauses, and goes on as it is told. -/
def pause (p : Pause) : Run Value := do obey (← pauseRaw p)

/-- Waits for a promise. -/
def awaitValue (v : Value) : Run Value := pause (.await v)

/-- Puts an action aside; the number by which it is known. -/
def park (action : Signal → Run Value) : Run Nat := fun i m =>
  .parked (.mk fun s m => action s i m) m fun n m => .done n m

/-- Lets an action go on that was put aside. -/
def wake (work : Nat) (s : Signal) : Run Reply := fun _ m =>
  .woken work s m fun r m => .done r m

/-! ## Objects -/

def object (r : Ref) : Run Object := return (← get).objects.getD r default

def changeObject (r : Ref) (f : Object → Object) : Run Unit :=
  modify fun m => { m with objects := m.objects.modify r f }

/-- Adds an object to the machine. -/
def allocate (o : Object) : Run Ref :=
  modifyGet fun m => (m.objects.size, { m with objects := m.objects.push o })

def bodyOf (r : Ref) : Run Body := return (← object r).body

def changeBody (r : Ref) (f : Body → Body) : Run Unit :=
  changeObject r fun o => { o with body := f o.body }

/-- What an object is; values that are no objects are nothing in particular. -/
def Value.body : Value → Run Body
  | .object r => bodyOf r
  | _ => return .plain

/-- An object without properties. -/
def plainObject : Run Ref := allocate { proto := some Intrinsic.objectProto.ref }

def arrayOf (items : Array (Option Value)) : Run Value :=
  return .object (← allocate { body := .array items, proto := some Intrinsic.arrayProto.ref })

def listOf (values : List Value) : Run Value := arrayOf (values.map some).toArray

/-! ## Errors -/

/-- The kinds of errors that the machine itself throws. -/
inductive ErrorKind where
  | type | range | grammar | reference
deriving DecidableEq

def ErrorKind.proto : ErrorKind → Intrinsic
  | type => .typeErrorProto
  | range => .rangeErrorProto
  | grammar => .syntaxErrorProto
  | reference => .referenceErrorProto

/-- An error with a message. -/
def makeError (proto : Ref) (message : String) : Run Value := do
  let properties := #[(Key.text "message", Property.quiet (.text message))]
  return .object (← allocate { body := .error, proto := some proto, properties })

def raise {α : Type} (kind : ErrorKind) (message : String) : Run α := do
  throwValue (← makeError kind.proto.ref message)

def typeError {α : Type} (message : String) : Run α := raise .type message

def rangeError {α : Type} (message : String) : Run α := raise .range message

def referenceError {α : Type} (message : String) : Run α := raise .reference message

def syntaxError {α : Type} (message : String) : Run α := raise .grammar message

/-! ## Scopes -/

def scope (r : Ref) : Run Scope := return (← get).scopes.getD r default

def changeScope (r : Ref) (f : Scope → Scope) : Run Unit :=
  modify fun m => { m with scopes := m.scopes.modify r f }

/-- Adds a scope to the machine. -/
def enclose (s : Scope) : Run Ref :=
  modifyGet fun m => (m.scopes.size, { m with scopes := m.scopes.push s })

/-- The place of a new scope within the one of `env`. -/
def within (env : Env) (bindings : List (String × Binding)) : Run Env := do
  return { env with scope := ← enclose { parent := some env.scope, bindings } }

/-! ## Symbols and jobs -/

def newSymbol (description : Option String) : Run Nat :=
  modifyGet fun m => (m.symbols.size, { m with symbols := m.symbols.push description })

def enqueue (j : Job) : Run Unit := modify fun m => { m with jobs := m.jobs ++ [j] }

end PagePreview.Engine
