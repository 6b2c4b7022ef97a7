import PagePreview.Console.Execution
import PagePreview.Console.Prompt
import PagePreview.Engine.Context
import PagePreview.Engine.Display

/-!
# The contexts of a prompt

A prompt creates contexts as it needs them, and they are numbered from one on.
Their scripts are run by the engine of this library, and may load only such
modules as are written into their addresses.
-/

namespace PagePreview.Console

open Engine (Stop)

/-- Modules are read out of their addresses. -/
def addressLoader : Engine.Loader := fun address =>
  match moduleSource? address with
  | some source => .ok source
  | none =>
    .error ("cannot load module `" ++ address ++ "`: only " ++ moduleMark ++
      " URLs are available")

/-- What has stopped a script, as a text. -/
def stopText (c : Engine.Context) : Stop → String
  | .thrown v | .finished v =>
    match (c.perform (Engine.showValue v)).1 with
    | .ok text => text
    | .error _ => Engine.tooDeepText
  | .tooDeep => Engine.tooDeepText

/-- Runs an action, and tells what stops it as a text. -/
def telling {α : Type} : Except Stop α × Engine.Context → Except String α × Engine.Context
  | (.ok a, c) => (.ok a, c)
  | (.error s, c) => (.error (stopText c s), c)

/-- The engine of this library. -/
def engine : ScriptEngine Engine.Context Engine.Value where
  evaluate source c := telling (c.perform (Engine.runScript source))
  runJobs c := telling (c.runJobs addressLoader)
  isUndefined
    | .undefined => true
    | _ => false
  textOf v c := telling (c.perform (Engine.toText v))

/-- Contexts that have been created. -/
structure Contexts where
  created : Nat := 0
  contexts : List (Nat × ExecutionContext Engine.Context) := []

namespace Contexts

def find? (cs : Contexts) (id : ContextId) : Option (ExecutionContext Engine.Context) :=
  cs.contexts.lookup id.number

def put (cs : Contexts) (c : ExecutionContext Engine.Context) : Contexts :=
  { cs with contexts := (c.id.number, c) :: cs.contexts.filter (·.1 != c.id.number) }

def create (cs : Contexts) : Except String ContextId × Contexts :=
  let id : ContextId := ⟨cs.created + 1⟩
  let cs := { cs with created := cs.created + 1 }
  match ExecutionContext.start engine id Engine.Context.fresh with
  | .error fault => (.error fault.text, cs)
  | .ok c => (.ok id, cs.put c)

/-- Does something with a context. -/
def within {α : Type} (id : ContextId) (usual : α)
    (action : ExecutionContext Engine.Context →
      Except ExecutionFault α × ExecutionContext Engine.Context)
    (cs : Contexts) : Except String α × Contexts :=
  match cs.find? id with
  | none => (.ok usual, cs)
  | some c =>
    match action c with
    | (.ok a, c) => (.ok a, cs.put c)
    | (.error fault, c) => (.error fault.text, cs.put c)

/-- What a prompt does with its contexts. -/
def host : Host Contexts where
  create := create
  run id script := within id () (·.run engine script)
  drain id := within id [] (·.drain engine)

end Contexts

end PagePreview.Console
