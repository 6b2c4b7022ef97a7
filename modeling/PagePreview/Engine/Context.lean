import PagePreview.Engine.Library
import PagePreview.Engine.Module
import PagePreview.Engine.Realm
import PagePreview.Engine.Statement

/-!
# Running a machine

A `Context` is a machine together with the work that its actions have put
aside. `Context.perform` runs an action to its end: whenever the action puts
work aside or wakes some, that is seen to here. After a script, the jobs that
wait are run in rounds, until there are none.
-/

namespace PagePreview.Engine

open Script

/-! ## Calling functions

What a call does depends on what is called: a function of a script runs its
body, at once or bit by bit; a function of the library does its work; a bound
function calls another one.
-/

/-- Calls a function of the library. -/
def callNative (owner name : String) (c : NativeCall) : Run Value := do
  match Library.find? owner name with
  | some f => f.run c
  | none => typeError "not a callable function"

/-- The prototype of the generators that a function makes. -/
def generatorProtoOf (f : Ref) (usual : Intrinsic) : Run Ref := do
  match ← getNamed f "prototype" with
  | .object p => return p
  | _ => return usual.ref

/-- Calls a function of a script. -/
def callClosure (f : Ref) (c : Closure) (self : Value) (args : List Value) : Run Value := do
  let self ← if c.manner == .arrow then pure self else c.self self
  let enter : Run Env := enterFunction f c (some self) args .undefined
  match c.routine.generator, c.routine.async with
  | true, false =>
    let env ← enter
    makeGenerator (← generatorProtoOf f .generatorProto) (runBody env c.body)
  | true, true =>
    let env ← enter
    makeStream (← generatorProtoOf f .streamProto) (do awaitValue (← runBody env c.body))
  | false, true => runTask do runBody (← enter) c.body
  | false, false => runBody (← enter) c.body

def callFunction (f self : Value) (args : List Value) : Run Value := do
  match f, ← f.body with
  | .object r, .native owner name _ held =>
    callNative owner name { function := r, self, arguments := args, held }
  | .object r, .closure c =>
    match c.manner with
    | .constructor _ => typeError "class constructor cannot be invoked without 'new'"
    | _ => asCall (callClosure r c self args)
  | _, .bound target self front _ => call target self (front ++ args)
  | _, _ => typeError "not a callable function"

/-- Makes an instance of what a function constructs. -/
def constructWith (f : Value) (args : List Value) (newTarget : Value) : Run Value := do
  match f, ← f.body with
  | .object r, body =>
    if !body.constructs then typeError "not a constructor"
    match body with
    | .native owner name _ held =>
      callNative owner name { function := r, self := .undefined, arguments := args, newTarget, held }
    | .closure c => asCall (constructClosure r c args newTarget)
    | .bound target _ front _ =>
      let newTarget := match newTarget with
        | .object t => if t == r then target else newTarget
        | _ => newTarget
      construct target (front ++ args) newTarget
    | _ => typeError "not a constructor"
  | _, _ => typeError "not a constructor"

/-! ## The interpreter -/

/-- An interpreter that can go down so many steps from expression to expression. -/
def interpreter : (depth : Nat) → Interpreter
  | 0 => {
    call := fun _ _ _ m => .stopped .tooDeep m
    construct := fun _ _ _ m => .stopped .tooDeep m
    evaluate := fun _ _ m => .stopped .tooDeep m
    execute := fun _ _ _ m => .stopped .tooDeep m }
  | depth + 1 => {
    call := fun f self args m => callFunction f self args (interpreter depth) m
    construct := fun f args newTarget m => constructWith f args newTarget (interpreter depth) m
    evaluate := fun env n m => evaluateNode env n (interpreter depth) m
    execute := fun env labels n m => executeNode env labels n (interpreter depth) m }

/-- As deep may expressions, statements and calls stand in one another. -/
def maxDepth : Nat := 20000

/-- Work that has been put aside, by number; what runs or has ended is missing. -/
abbrev Works := Array (Option Work)

structure Context where
  machine : Machine
  works : Works := #[]

/-- An action that has been run as far as it goes by itself. -/
inductive Progressed (α : Type) where
  | gave (a : α)
  | paused (p : Pause) (go : Signal → Machine → Outcome Work α)
  | stopped (s : Stop)

/-- Runs an action up to its end or to its next pause; `wake` lets other work go on. -/
def advance {α : Type} (wake : Nat → Signal → Context → Reply × Context) :
    Outcome Work α → Works → Progressed α × Context
  | .done a machine, works => (.gave a, { machine, works })
  | .stopped s machine, works => (.stopped s, { machine, works })
  | .paused p machine go, works => (.paused p go, { machine, works })
  | .parked w machine go, works => advance wake (go works.size machine) (works.push (some w))
  | .woken n s machine go, works =>
    let (r, c) := wake n s { machine, works }
    advance wake (go r c.machine) c.works

/-- Lets work go on that was put aside; `bound` is how deep such work may wake other work. -/
def wakeWithin : (bound : Nat) → Nat → Signal → Context → Reply × Context
  | 0, _, _, c => (.stopped .tooDeep, c)
  | bound + 1, n, s, c =>
    match c.works[n]?.join with
    | none => (.stopped .tooDeep, c)
    | some (.mk go) =>
      match advance (wakeWithin bound) (go s c.machine) (c.works.set! n none) with
      | (.gave v, c) => (.gave v, c)
      | (.paused p go, c) => (.paused p, { c with works := c.works.set! n (some (.mk go)) })
      | (.stopped s, c) => (.stopped s, c)

/-- As deep may work wake other work. -/
def maxWaking : Nat := 4096

namespace Context

/-- Runs an action to its end. No action that is run like this pauses by itself. -/
def perform {α : Type} (c : Context) (action : Run α) : Except Stop α × Context :=
  let outcome := action (interpreter maxDepth) c.machine
  match advance (wakeWithin maxWaking) outcome c.works with
  | (.gave a, c) => (.ok a, c)
  | (.stopped s, c) => (.error s, c)
  | (.paused _ _, c) => (.error .tooDeep, c)

/-- Runs actions one after the other, up to one that stops. -/
def performAll (c : Context) : List (Run Unit) → Except Stop Unit × Context
  | [] => (.ok (), c)
  | a :: as =>
    match c.perform a with
    | (.ok (), c) => performAll c as
    | (.error s, c) => (.error s, c)

/-- Takes one module that is to be loaded, and then the jobs that wait. -/
def round (load : Loader) (c : Context) : Except Stop Unit × Context :=
  let (first, imports) := (c.machine.imports.take 1, c.machine.imports.drop 1)
  let c := { c with machine := { c.machine with imports } }
  match c.performAll (first.map (startImport load)) with
  | (.error s, c) => (.error s, c)
  | (.ok (), c) =>
    let jobs := c.machine.jobs
    { c with machine := { c.machine with jobs := [] } }.performAll (jobs.map (runJob load))

/-- Whether nothing waits. -/
def isIdle (c : Context) : Bool := c.machine.jobs.isEmpty && c.machine.imports.isEmpty

/-- As many rounds are run at most. -/
def maxRounds : Nat := 10000000

/-- Runs rounds until nothing waits. When something stops, all that waits is dropped. -/
def runRounds (load : Loader) : (bound : Nat) → Context → Except Stop Unit × Context
  | 0, c => (.error .tooDeep, c)
  | bound + 1, c =>
    if c.isIdle then (.ok (), c)
    else
      match c.round load with
      | (.ok (), c) => runRounds load bound c
      | (.error s, c) =>
        (.error s, { c with machine := { c.machine with jobs := [], imports := [] } })

def runJobs (load : Loader) (c : Context) : Except Stop Unit × Context :=
  runRounds load maxRounds c

/-- A context in which nothing has been run. -/
def fresh : Context := (({ machine := bareMachine } : Context).perform installLibrary).2

end Context

end PagePreview.Engine
