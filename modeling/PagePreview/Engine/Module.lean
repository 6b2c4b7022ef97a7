import PagePreview.Engine.Pausing
import PagePreview.Engine.Reading
import PagePreview.Engine.Statement

/-!
# Modules

A module runs in a scope of its own, after the modules that it takes names
from. What it hands out is found in its namespace. How the text of a module is
come by from its address is not said here, but by a `Loader`.
-/

namespace PagePreview.Engine

open Script

/-- The text of the module with an address, or why there is none. -/
abbrev Loader := String → Except String String

/-- The name that a specifier mentions. -/
def specifierName (n : Node) : String := (n.name?.or n.string?).getD ""

/-- What a statement hands out: names of the namespace with those of the scope. -/
def exportsOf (n : Node) : List (String × String) :=
  match n with
  | .mk .exportDeclaration _ [d] =>
    match d with
    | .mk (.variables _ _) _ ds => (boundNamesAmong ds).map fun s => (s, s)
    | .mk (.function _ _ _) _ (name :: _) => name.name?.toList.map fun s => (s, s)
    | .mk (.classDef _ _) _ (_ :: name :: _) => name.name?.toList.map fun s => (s, s)
    | _ => []
  | .mk .exportDefault _ [d] =>
    match d with
    | .mk (.function _ .declaration _) _ (name :: _) => [("default", name.name?.getD "*default*")]
    | .mk (.classDef .declaration _) _ (_ :: name :: _) =>
      [("default", name.name?.getD "*default*")]
    | _ => [("default", "*default*")]
  | .mk (.exportNamed _) _ [specifiers, source, _] =>
    if !source.isAbsent then []
    else specifiers.children.filterMap fun s =>
      match s with
      | .mk (.exportSpecifier _) _ [here, there] => some (specifierName there, specifierName here)
      | _ => none
  | _ => []

/-- The address of the module that a statement takes names from, if it does. -/
def sourceOf? (n : Node) : Option String :=
  match n with
  | .mk (.importFrom _ _) _ [_, source, _] => source.string?
  | .mk (.exportNamed _) _ [_, source, _] => source.string?
  | .mk (.exportAll _) _ [_, source, _] => source.string?
  | _ => none

/-- Binds the names that a statement takes from the namespace of another module; what the statement
hands on. -/
def takeNames (env : Env) (namespaceRef : Ref) (n : Node) : Run (List (String × String)) := do
  let read (name : String) : Run Value := do
    if !(← hasOwn namespaceRef (.text name)) then
      syntaxError ("could not resolve import `" ++ name ++ "`")
    getNamed namespaceRef name
  let put (name : String) (v : Value) : Run Unit :=
    bind env.scope name { value := some v, constant := true }
  match n with
  | .mk (.importFrom _ _) _ [specifiers, _, _] =>
    for s in specifiers.children do
      match s with
      | .mk .importDefault _ [here] => put (specifierName here) (← read "default")
      | .mk .importNamespace _ [here] => put (specifierName here) (.object namespaceRef)
      | .mk (.importNamed _) _ [there, here] =>
        put (specifierName here) (← read (specifierName there))
      | _ => pure ()
    return []
  | .mk (.exportNamed _) _ [specifiers, _, _] =>
    specifiers.children.mapM fun s => do
      match s with
      | .mk _ _ [here, there] =>
        let name := "*" ++ specifierName there
        put name (← read (specifierName here))
        return (specifierName there, name)
      | _ => return ("", "")
  | .mk (.exportAll _) _ [name, _, _] =>
    if !name.isAbsent then
      put "*all" (.object namespaceRef)
      return [(specifierName name, "*all")]
    else
      (← listedKeys namespaceRef).filterMapM fun s => do
        if s == "default" then return none
        put ("*" ++ s) (← read s)
        return some (s, "*" ++ s)
  | _ => return []

/-- As many modules may take names from one another in a row. -/
def maxModules : Nat := 200

mutual

/-- Loads a module and runs it; its namespace. -/
def loadModule (load : Loader) : (bound : Nat) → (address : String) → Run Ref
  | 0, _ => throw .tooDeep
  | bound + 1, address => do
    match load address with
    | .error reason => throwValue (.text reason)
    | .ok text =>
      let piece ← readText true text
      runModule load bound piece.statements piece.source

/-- Runs the statements of a module; its namespace. -/
def runModule (load : Loader) : (bound : Nat) → List Node → Source → Run Ref
  | 0, _, _ => throw .tooDeep
  | bound + 1, ns, source => do
    let info : CallInfo := { self := some .undefined, function := none }
    let r ← enclose { parent := some globalScope, call := some info, holdsVariables := true }
    let env : Env := { scope := r, strict := true, source }
    let taken ← ns.flatMapM fun n => do
      match sourceOf? n with
      | none => return []
      | some address => takeNames env (← loadModule load bound address) n
    declareInFunction env ns
    let exports := ns.flatMap exportsOf ++ taken
    if exports.any fun e => e.2 == "*default*" then bind r "*default*" { value := none }
    let sorted := exports.mergeSort fun a b => a.1 ≤ b.1
    let spaceRef ← allocate {
      body := .namespace r sorted, extensible := false
      properties := #[(WellKnown.toStringTag.key, .fixed (.text "Module"))] }
    let _ ← runStatements env ns none
    return spaceRef

end

/-- Begins to load a module that has been asked for. -/
def startImport (load : Loader) (i : Import) : Run Unit := do
  match load i.address with
  | .error reason => let _ ← call i.reject .undefined [.text reason]
  | .ok text =>
    match ← catching (readText true text) with
    | .ok piece => enqueue (.evaluate piece.statements piece.source i.resolve i.reject)
    | .error e => let _ ← call i.reject .undefined [e]

/-- Runs a job. -/
def runJob (load : Loader) : Job → Run Unit
  | .react r fulfilled v => runReaction r fulfilled v
  | .adopt promise thenable action => adopt promise thenable action
  | .evaluate ns source resolve reject => do
    match ← oneDeeper (runTask do return .object (← runModule load maxModules ns source)) with
    | .object p => react p { onFulfilled := .undefined, onRejected := .undefined, resolve, reject }
    | _ => return ()

end PagePreview.Engine
