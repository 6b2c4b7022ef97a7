import PagePreview.Engine.Block

/-!
# Objects and classes as they are written

The members of an object literal and of a class are put into an object one
after the other. Getters and setters of one name share a property. The fields
of a class are kept for its instances.
-/

namespace PagePreview.Engine

open Script

/-- Puts a getter or a setter into an object. -/
def defineAccessor (r : Ref) (k : Key) (form : MemberForm) (f : Value) (enumerable : Bool) :
    Run Unit := do
  let (get, set) ← match ← getOwn r k with
    | some ⟨.accessor get set, _, _⟩ => pure (get, set)
    | _ => pure (.undefined, .undefined)
  let slot : Slot := match form with
    | .setter => .accessor get f
    | _ => .accessor f set
  changeObject r (·.store k ⟨slot, enumerable, true⟩)

/-- The name that a function takes from a key. -/
def functionName (k : Key) (form : MemberForm) : Run String := do
  let name ← match k with
    | .symbol id =>
      pure (((← get).symbols.getD id none).elim "" fun d => "[" ++ d ++ "]")
    | k => k.shown
  return match form with
    | .getter => "get " ++ name
    | .setter => "set " ++ name
    | _ => name

/-- Puts a method, a getter or a setter into an object; `whole` is the member that it is. -/
def defineMethod (env : Env) (r : Ref) (k : Key) (form : MemberForm) (whole f : Node)
    (enumerable : Bool) : Run Unit := do
  let c := { closureOf env .method f with home := some r, whole := memberNode env whole }
  let f ← makeFunction c (← functionName k form)
  match form with
  | .getter | .setter => defineAccessor r k form f enumerable
  | _ => defineOwn r k ⟨.data f true, enumerable, true⟩

/-! ## Object literals -/

/-- Copies the listed properties of a value into an object. -/
def copyInto (target : Ref) (v : Value) : Run Unit := do
  match v with
  | .undefined | .null => return ()
  | v =>
    let r ← toObject v
    for k in ← ownKeys r do
      match ← getOwn r k with
      | some p => if p.enumerable then defineOwn target k (.ofValue (← getProperty r k))
      | none => pure ()

def defineMember (env : Env) (r : Ref) (n : Node) : Run Unit := do
  match n with
  | .mk .spread _ [e] => copyInto r (← evaluate env e)
  | .mk (.property .value computed shorthand) _ [key, e] =>
    let isProto := !computed && !shorthand && (match key.kind with
      | .name s | .string s _ => s == "__proto__"
      | _ => false)
    if isProto then
      match ← evaluate env e with
      | .object p => changeObject r fun o => { o with proto := some p }
      | .null => changeObject r fun o => { o with proto := none }
      | _ => return ()
    else
      let k ← evaluateKey env computed key
      let name ← functionName k .value
      defineOwn r k (.ofValue (← evaluateNamed env name e))
  | .mk (.property form computed _) _ [key, f] =>
    let k ← evaluateKey env computed key
    defineMethod env r k form n f true
  | _ => return ()

/-- The object of a literal. -/
def objectLiteral (env : Env) (members : List Node) : Run Value := do
  let r ← plainObject
  for n in members do defineMember env r n
  return .object r

/-! ## Classes -/

/-- The prototype of the instances' prototype, and the prototype of the class. -/
def baseProtos (env : Env) (base : Node) : Run (Option Ref × Ref) := do
  if base.isAbsent then
    return (some Intrinsic.objectProto.ref, Intrinsic.functionProto.ref)
  match ← evaluate env base with
  | .null => return (none, Intrinsic.functionProto.ref)
  | .object b =>
    if !(← isConstructor (.object b)) then typeError "superclass must be a constructor"
    match ← getNamed b "prototype" with
    | .object p => return (some p, b)
    | .null => return (none, b)
    | _ => typeError "superclass prototype must be an object or null"
  | _ => typeError "superclass must be a constructor"

/-- What the members of a class come to: fields and private methods of instances, and what is
still to be done for the class itself. -/
structure Members where
  fields : List Field := []
  hidden : List (Key × Property) := []
  /-- Static fields, and static blocks without a key. -/
  static : List (Option Key × Node) := []

/-- Adds a private method, getter or setter. -/
def addHidden (hidden : List (Key × Property)) (k : Key) (form : MemberForm) (f : Value) :
    List (Key × Property) :=
  let old : Slot := ((hidden.lookup k).map Property.slot).getD (.data .undefined false)
  let slot : Slot := match form, old with
    | .getter, .accessor _ s => .accessor f s
    | .setter, .accessor g _ => .accessor g f
    | .getter, _ => .accessor f .undefined
    | .setter, _ => .accessor .undefined f
    | _, _ => .data f false
  hidden.filter (·.1 != k) ++ [(k, ⟨slot, false, false⟩)]

/-- Takes in one member of a class. -/
def addMember (env : Env) (cls proto : Ref) (ms : Members) (n : Node) : Run Members := do
  match n with
  | .mk (.method _ true _ _) _ _ => return ms
  | .mk (.method form _ computed modifiers) _ [_, key, f] =>
    let home := if modifiers.isStatic then cls else proto
    let k ← evaluateKey env computed key
    match k with
    | .hidden _ =>
      let c := { closureOf env .method f with home := some home, whole := memberNode env n }
      let made ← makeFunction c (← functionName k form)
      if modifiers.isStatic then
        let own := (← object cls).stored? k
        let entry := addHidden (own.toList.map (k, ·)) k form made
        for (k, p) in entry do changeObject cls (·.store k p)
        return ms
      else return { ms with hidden := addHidden ms.hidden k form made }
    | _ =>
      defineMethod env home k form n f false
      return ms
  | .mk (.field computed modifiers) _ [_, key, _, value] =>
    if modifiers.isDeclared then return ms
    let k ← evaluateKey env computed key
    if modifiers.isStatic then return { ms with static := ms.static ++ [(some k, value)] }
    else return { ms with fields := ms.fields ++ [⟨k, value⟩] }
  | .mk .staticBlock _ _ => return { ms with static := ms.static ++ [(none, n)] }
  | _ => return ms

/-- Runs what belongs to the class itself. -/
def runStatic (env : Env) (cls : Ref) : Option Key × Node → Run Unit
  | (some k, value) => do
    let inner ← memberEnv env (.object cls) cls
    let v ← if value.isAbsent then pure .undefined
      else evaluateNamed inner (← functionName k .value) value
    match k with
    | .hidden _ => changeObject cls (·.store k (.quiet v))
    | k => defineOwn cls k (.ofValue v)
  | (none, block) => do
    let inner ← memberEnv env (.object cls) cls
    declareInFunction inner block.children
    let _ ← runStatements inner block.children none

/-- The class of a declaration or an expression. -/
def makeClass (env : Env) (name : String) (n : Node) : Run Value := do
  match n with
  | .mk (.classDef _ _) _ [_, own, _, base, _, _, members] =>
    let env := { env with strict := true }
    let privates ← (privateNames members.children).mapM fun s => do
      return ("#" ++ s, ({ value := some (.symbol (← newSymbol (some s))) } : Binding))
    let names := own.name?.toList.map fun s => (s, ({ value := none, constant := true } : Binding))
    let env ← within env (names ++ privates)
    let (protoBase, classBase) ← baseProtos env base
    let proto ← allocate { proto := protoBase }
    let manner := Manner.constructor !base.isAbsent
    let explicit := members.children.find? fun m => m.kind matches .method _ true _ _
    let c : Closure := match explicit with
      | some (.mk _ _ [_, _, f]) => closureOf env manner f
      | _ => {
        env, parameters := [], body := .absent, routine := {}, manner, whole := n }
    let name := own.name?.getD name
    let f ← makeFunction { c with home := some proto, whole := n } name
    match f with
    | .object cls =>
      changeObject cls fun o =>
        { o.store (.text "prototype") (.fixed (.object proto)) with proto := some classBase }
      defineOwn proto (.text "constructor") (.quiet f)
      let ms ← members.children.foldlM (addMember env cls proto) {}
      changeBody cls fun
        | .closure c => .closure { c with fields := ms.fields, hidden := ms.hidden }
        | b => b
      match own.name? with
      | some s => startName env s f
      | none => pure ()
      for s in ms.static do runStatic env cls s
    | _ => pure ()
    return f
  | _ => return .undefined

end PagePreview.Engine
