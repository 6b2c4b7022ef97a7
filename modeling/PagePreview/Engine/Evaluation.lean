import PagePreview.Engine.Block
import PagePreview.Engine.Reading

/-!
# Evaluating scripts

A script declares its names in the outermost scopes, where the ones after it
find them. What is evaluated where a script stands sees the names there, and
under strict rules it keeps its own to itself.
-/

namespace PagePreview.Engine

open Script

/-- Declares what a script declares in the outermost scopes. -/
def declareGlobally (env : Env) (ns : List Node) : Run Unit := do
  let global := Intrinsic.global.ref
  let names := declaredNames ns
  let isTaken (name : String) : Run Bool :=
    return ((← scope globalScope).bindings.lookup name).isSome
  for (name, _) in names do
    if ← isTaken name then syntaxError "duplicate lexical declaration"
    if let some p ← getOwn global (.text name) then
      if !p.configurable then syntaxError "cannot redefine non-configurable global property"
  for name in variableNamesAmong ns ++ (declaredFunctions ns).map (·.1) do
    if ← isTaken name then syntaxError "duplicate lexical declaration"
  for name in variableNamesAmong ns do
    if !(← hasOwn global (.text name)) then
      defineOwn global (.text name) ⟨.data .undefined true, true, false⟩
  for (name, n) in declaredFunctions ns do
    defineOwn global (.text name) ⟨.data (← declaredFunction env name n) true, true, false⟩
  for (name, constant) in names do
    bind globalScope name { value := none, constant }

/-- The value that statements end with. -/
def Completion.value : Completion → Value
  | .normal v => v.getD .undefined
  | .leave _ v => v.getD .undefined
  | .next _ v => v.getD .undefined
  | .give v => v

/-- Runs a script. -/
def runScript (text : String) : Run Value := do
  let piece ← readText false text
  let env : Env := { scope := globalScope, strict := piece.strict, source := piece.source }
  declareGlobally env piece.statements
  return (← oneDeeper (runStatements env piece.statements none)).value

/-- Refuses statements that are evaluated outside of the functions that they speak of. -/
def checkEvaluated (env : Env) (ns : List Node) : Run Unit := do
  let info ← callInfo env
  if info.function.isNone && mentionsAmong isNewTarget ns then
    syntaxError "invalid `new.target` expression inside eval"
  if info.home.isNone && mentionsAmong isSuperclass ns then
    syntaxError "invalid `super` reference inside eval"

/-- Evaluates a value where a script stands: a text is a script, and anything else is its own
value. -/
def evaluateIn (env : Env) (v : Value) : Run Value := do
  match v with
  | .text text =>
    let piece ← readPiece false env.strict text
    checkEvaluated env piece.statements
    let strict := piece.strict
    let inner : Env := {
      scope := ← enclose { parent := some env.scope, holdsVariables := strict }
      strict, source := piece.source }
    let ns := piece.statements
    if strict then declareInFunction inner ns
    else
      let outer ← variableScope maxScopes env.scope
      let functions := declaredFunctions ns
      for name in variableNamesAmong ns ++ functions.map (·.1) do
        let s ← scope outer
        match s.object with
        | some o =>
          if !(← hasOwn o (.text name)) then defineOwn o (.text name) (.ofValue .undefined)
        | none =>
          if outer == globalScope then
            let global := Intrinsic.global.ref
            if !(← hasOwn global (.text name)) then
              defineOwn global (.text name) (.ofValue .undefined)
          else if (s.bindings.lookup name).isNone then
            bind outer name { value := some .undefined }
      for (name, constant) in declaredNames ns do
        bind inner.scope name { value := none, constant }
      for (name, n) in functions do
        setName inner name (← declaredFunction inner name n)
    return (← oneDeeper (runStatements inner ns none)).value
  | v => return v

/-- Evaluates a value where no script stands. -/
def evaluateGlobally (v : Value) : Run Value :=
  evaluateIn { scope := globalScope, strict := false, source := [] } v

end PagePreview.Engine
