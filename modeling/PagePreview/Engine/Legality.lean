import PagePreview.Engine.Declarations

/-!
# What well-formed scripts may not say

Some scripts follow the grammar and are refused all the same: a name is
declared twice, a jump leads nowhere, or something occurs outside of the
construct that it belongs to. `offence?` finds the first such thing in the
statements of a script, and the place at which it is told.
-/

namespace PagePreview.Engine

open Script

/-! ## Names -/

/-- Whether statements that stand together declare a name twice where that is not allowed. The
functions of a block count as its own names, others as variables. -/
def repeatsName (strict inBlock : Bool) (ns : List Node) : Bool :=
  let names := (declaredNames ns).map (·.1)
  let functions := (declaredFunctions ns).map (·.1)
  let own :=
    if !inBlock then names
    else if strict then names ++ functions
    else names ++ functions.eraseDups
  let others := variableNamesAmong ns ++ (if inBlock then [] else functions)
  own.eraseDups.length != own.length || own.any others.contains

def repeatedName : String := "lexical name declared multiple times"

/-- The names that strict rules keep from being bound or assigned to. -/
def isGuarded (name : String) : Bool := name == "eval" || name == "arguments"

/-! ## Single nodes -/

/-- Whether a number is written with a leading zero. -/
def hasLeadingZero (text : String) : Bool :=
  match text.toList with
  | '0' :: d :: _ => d.isDigit
  | _ => false

/-- What a node may not say, and the place at which it is told. -/
def nodeOffence? (strict : Bool) : Node → Option (String × Nat)
  | .mk .block span ns =>
    if repeatsName strict true ns then some (repeatedName, span.start + 1) else none
  | .mk .body span ns =>
    if repeatsName strict false ns then some (repeatedName, span.start + 1) else none
  | .mk .switch _ [_, .mk .group span cases] =>
    if repeatsName strict true (cases.flatMap fun c => c.children.drop 1) then
      some (repeatedName, span.start + 1)
    else none
  | .mk .withObject span _ =>
    if strict then some ("with statement not allowed in strict mode", span.start) else none
  | .mk (.unary .delete) span [e] =>
    if strict && e.bare.name?.isSome then
      some ("cannot delete variables in strict mode", span.start)
    else none
  | .mk (.number text) span _ =>
    if strict && hasLeadingZero text then
      some ("implicit octal literals are not allowed in strict mode", span.start)
    else none
  | .mk (.assign _) span [t, _] =>
    if strict && (t.bare.name?.map isGuarded).getD false then
      some ("Invalid left-hand side in assignment", span.start)
    else none
  | .mk (.update _ _) span [t] =>
    if strict && (t.bare.name?.map isGuarded).getD false then
      some ("Invalid left-hand side in assignment", span.start)
    else none
  | .mk .declarator _ [.mk (.name s) span _, _] =>
    if strict && isGuarded s then
      some ("binding identifier `" ++ s ++ "` not allowed in strict mode", span.start)
    else none
  | _ => none

/-! ## Jumps -/

/-- What a jump can lead to. -/
structure Landings where
  /-- Whether `break` alone leads somewhere. -/
  breaks : Bool := false
  /-- Whether `continue` alone leads somewhere. -/
  continues : Bool := false
  labels : List String := []
  loopLabels : List String := []
  /-- The labels directly in front. -/
  waiting : List String := []

namespace Landings

/-- What a jump within a node can lead to. -/
def inside (l : Landings) : Kind → Landings
  | .labeled s => { l with labels := s :: l.labels, waiting := s :: l.waiting }
  | .forLoop | .forIn | .forOf _ | .whileLoop | .doWhile =>
    { l with
      breaks := true, continues := true, loopLabels := l.waiting ++ l.loopLabels, waiting := [] }
  | .switch => { l with breaks := true, waiting := [] }
  | .function _ _ _ | .arrow _ | .field _ _ | .staticBlock => {}
  | _ => { l with waiting := [] }

/-- Why a node cannot stand there, if it is about jumps. -/
def fault? (l : Landings) : Kind → Option String
  | .breakOut none => if l.breaks then none else some "illegal break statement"
  | .breakOut (some s) =>
    if l.labels.contains s then none else some ("undefined break target: " ++ s)
  | .continueLoop none => if l.continues then none else some "illegal continue statement"
  | .continueLoop (some s) =>
    if l.loopLabels.contains s then none else some ("undefined continue target: " ++ s)
  | .labeled s => if l.labels.contains s then some ("duplicate label: " ++ s) else none
  | _ => none

end Landings

mutual

/-- What is wrong with the first jump that leads nowhere. -/
def jumpFault? (l : Landings) : Node → Option String
  | .mk k _ cs => (l.fault? k).or (jumpFaultAmong? (l.inside k) cs)

def jumpFaultAmong? (l : Landings) : List Node → Option String
  | [] => none
  | n :: ns => (jumpFault? l n).or (jumpFaultAmong? l ns)

end

/-! ## What belongs to functions and classes -/

mutual

/-- Whether a node satisfies `p`, not counting what belongs to functions and classes in it. -/
def mentions (p : Kind → Bool) : Node → Bool
  | .mk (.function ..) _ _ | .mk (.field ..) _ _ | .mk .staticBlock _ _ => false
  | .mk k _ cs => p k || mentionsAmong p cs

def mentionsAmong (p : Kind → Bool) : List Node → Bool
  | [] => false
  | n :: ns => mentions p n || mentionsAmong p ns

end

def isSuperclass (k : Kind) : Bool := k matches .superclass

def isNewTarget (k : Kind) : Bool := k matches .metaProperty "new" _

mutual

/-- Whether a private name occurs outside of the classes that declare it. -/
def usesForeignName (known : List String) : Node → Bool
  | .mk (.privateName s) _ _ => !known.contains s
  | .mk (.classDef _ _) _ [ds, name, tps, base, args, interfaces, .mk .group _ members] =>
    let inner := privateNames members ++ known
    usesForeignName known ds || usesForeignName known name || usesForeignName known tps ||
      usesForeignName inner base || usesForeignName known args ||
      usesForeignName known interfaces || usesForeignNameAmong inner members
  | .mk _ _ cs => usesForeignNameAmong known cs

def usesForeignNameAmong (known : List String) : List Node → Bool
  | [] => false
  | n :: ns => usesForeignName known n || usesForeignNameAmong known ns

end

/-! ## Whole scripts -/

/-- What the statements of a script may not say together. -/
def scriptFault? (strict : Bool) (ns : List Node) : Option String :=
  if repeatsName strict false ns then some repeatedName else jumpFaultAmong? {} ns

/-- What statements may not say where they stand on their own. -/
def outerFault? (isModule : Bool) (ns : List Node) : Option String :=
  if mentionsAmong isSuperclass ns then
    some (if isModule then "module cannot contain `super` on the top-level"
      else "invalid super usage")
  else if mentionsAmong isNewTarget ns then
    some (if isModule then "module cannot contain `new.target` on the top-level"
      else "invalid new.target usage")
  else if usesForeignNameAmong [] ns then some "invalid private identifier usage"
  else none

/-- The first thing that a script may not say, and the place at which it is told. -/
def offence? (strict : Bool) (ns : List Node) : Option (String × Nat) :=
  ((Node.nodesAmong ns).findSome? (nodeOffence? strict)).or
    ((scriptFault? strict ns).map (·, 0))

end PagePreview.Engine
