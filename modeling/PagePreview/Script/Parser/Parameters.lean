import PagePreview.Script.Parser.Names

/-!
# Patterns and parameters

A pattern binds names. Behind it there may be a question mark, a type and a
default. A parameter is a pattern with decorators and words in front of it;
the first one may instead say what `this` is.
-/

namespace PagePreview.Script.Parser

/-! ## Parts -/

/-- An expression in which `in` is an operator. -/
def plainAssignment (rules : Rules) : Parser Node :=
  within (fun c => { c with isIn := true }) (rules (.assignment true))

/-- A type behind a colon, if there is a colon. -/
def ascription (rules : Rules) : Parser Node := do
  if (← get).extended && (← eatMark ":") then rules .type else return .absent

/-- A pattern with its default, if there is one, begun at some place. -/
def withDefault (rules : Rules) (place : Nat) (p : Node) : Parser Node := do
  if ← eatMark "=" then
    let e ← plainAssignment rules
    node place .withDefault [p, e]
  else return p

/-- A pattern with what may stand behind it. -/
def bindingElement (rules : Rules) : Parser Node := do
  let place ← start
  let p ← rules .pattern
  let optional ← if (← get).extended then eatMark "?" else pure false
  let t ← ascription rules
  let p ← if t.isAbsent && !optional then pure p else node place (.typed optional false) [p, t]
  withDefault rules place p

def bindingRest (rules : Rules) : Parser Node := do
  let place ← start
  expectMark "..."
  let p ← rules .pattern
  let t ← ascription rules
  let inner ← if t.isAbsent then pure p else node place (.typed false false) [p, t]
  let r ← node place .rest [inner]
  if ← isMark "," then complain
  return r

/-! ## Patterns -/

/-- Whether a rest binds a single name. -/
def restIsName (n : Node) : Bool :=
  match n.child 0 with
  | .mk (.typed _ _) _ (p :: _) => p.name?.isSome
  | p => p.name?.isSome

def propertyPattern (rules : Rules) : Parser Node := do
  if ← isMark "..." then
    let r ← bindingRest rules
    if !restIsName r then complain
    return r
  let place ← start
  match ← lexeme with
  | .word w _ =>
    if isIdentifier (.word w false) && !(← followedByMark ":") then
      let name ← if (← get).extended then advance; node place (.name w) else identifier
      let v ← withDefault rules place name
      return ← node place (.propertyPattern false true) [name, v]
  | _ => pure ()
  let (k, computed) ← key rules
  expectMark ":"
  let v ← bindingElement rules
  node place (.propertyPattern computed false) [k, v]

def arrayPatternItem (rules : Rules) : Parser Node := do
  if ← isMark "," then return .absent
  if ← isMark "..." then bindingRest rules else bindingElement rules

def pattern (rules : Rules) : Parser Node := do
  let place ← start
  match ← lexeme with
  | .mark "\x7b" =>
    advance
    let ps ← separated "\x7d" (propertyPattern rules)
    expectMark "\x7d"
    node place .objectPattern ps
  | .mark "[" =>
    advance
    let ps ← separated "]" (arrayPatternItem rules)
    expectMark "]"
    node place .arrayPattern ps
  | _ => identifier

/-! ## Parameters -/

/-- Decorators, as a group. -/
def decorators (rules : Rules) : Parser Node := do
  let place ← start
  let ds ← repeated do
    if (← isMark "@") && (← get).extended then
      let place ← start
      advance
      let e ← within (fun c => { c with decorator := true }) (rules .leftHand)
      return some (← node place .decorator [e])
    else return none
  if ds.isEmpty then return .absent else node place .group ds

def accessOf? (w : String) : Option Access :=
  if w == "public" then some .public
  else if w == "private" then some .private
  else if w == "protected" then some .protected
  else none

/-- The words in front of a parameter. -/
def parameterModifiers : Parser Modifiers :=
  iterate (fun m => do
    match ← lexeme with
    | .word w false =>
      let t ← following
      let follows := isIdentifier t.lexeme || t.lexeme == .mark "[" || t.lexeme == .mark "\x7b"
      if !follows || t.onNewLine then return none
      match accessOf? w with
      | some a => advance; return some { m with access := some a }
      | none =>
        if w == "readonly" then advance; return some { m with isReadonly := true }
        else if w == "override" then advance; return some { m with isOverride := true }
        else return none
    | _ => return none) {}

def parameter (rules : Rules) : Parser Node := do
  let place ← start
  let ds ← decorators rules
  if ← isMark "..." then
    let r ← bindingRest rules
    return ← node place (.parameter {}) [ds, r]
  let modifiers ← parameterModifiers
  let p ← bindingElement rules
  node place (.parameter modifiers) [ds, p]

/-- What says what `this` is, in the place of a parameter. -/
def selfParameter (rules : Rules) : Parser Node := do
  let place ← start
  advance
  let self ← node place .self
  let t ← ascription rules
  let p ← if t.isAbsent then pure self else node place (.typed false false) [self, t]
  node place (.parameter {}) [.absent, p]

/-- Whether what a parameter binds is `this`. -/
def isSelf (p : Node) : Bool :=
  match p with
  | .mk .self _ _ | .mk (.typed _ _) _ (.mk .self _ _ :: _) => true
  | _ => false

/-- The parameters of some kind of function. -/
def parameters (rules : Rules) (construct : String) : Parser Node :=
  within (fun c => { c with isIn := true, returns := false }) do
    let place ← start
    demandMark construct "("
    let self ← do
      if (← get).extended && (← isWord "this") then
        let p ← selfParameter rules
        if !(← isMark ")") then expectMark ","
        pure [p]
      else pure []
    let ps ← separated ")" (parameter rules)
    if !(← eatMark ")") then missing [","] "parameter list"
    node place .group (self ++ ps)

end PagePreview.Script.Parser
