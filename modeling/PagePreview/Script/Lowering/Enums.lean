import PagePreview.Script.Lowering.Constant
import PagePreview.Script.Lowering.Names

/-!
# Enumerations become objects

An enumeration is a variable that holds an object, made by a function that is
called at once. A member with a number is found under its name and its number
under that name's value; a member with a text only under its name. Members
without a value go on counting from the member before them.
-/

namespace PagePreview.Script.Lowering

/-! ## The members -/

/-- An expression for a number. -/
def numberNode (x : Float) : Node :=
  if x.isNaN then name "NaN"
  else
    let size : Node :=
      if x.isInf then name "Infinity"
      else .made (.number (String.ofList (Numeral.shown x.abs)))
    if Decimal.isNegative x then .made (.unary .minus) [size] else size

def constantNode : Constant → Node
  | .number x => numberNode x
  | .text s => text s

mutual

/-- An expression in which the names of members are taken from the enumeration. -/
def qualify (enumeration : String) (ms : Members) : Node → Node
  | .mk (.name s) span cs =>
    if (ms.find? s).isSome then .mk (.member false) {} [name enumeration, name s]
    else .mk (.name s) span cs
  | .mk (.member o) span (e :: p) => .mk (.member o) span (qualify enumeration ms e :: p)
  | .mk (.property f c sh) span [k, v] =>
    .mk (.property f c sh) span
      [if c then qualify enumeration ms k else k, qualify enumeration ms v]
  | .mk (.parameter m) span cs => .mk (.parameter m) span cs
  | .mk k span cs => .mk k span (qualifyAmong enumeration ms cs)

def qualifyAmong (enumeration : String) (ms : Members) : List Node → List Node
  | [] => []
  | n :: ns => qualify enumeration ms n :: qualifyAmong enumeration ms ns

end

def memberName (n : Node) : String :=
  match (n.child 0).kind with
  | .name s | .string s _ => s
  | .template => (((n.child 0).children.head?.bind fun c => match c.kind with
    | .chunk _ cooked => cooked
    | _ => none)).getD ""
  | _ => ""

def property (enumeration key : String) : Node := .made (.index false) [name enumeration, text key]

/-- What is known about the members before one. -/
structure Count where
  members : Members
  /-- The constant value of the last member; a number below zero in front of the first. -/
  last : Option Constant := some (.number (-1))
  lastName : Option String := none

/-- The value of a member, and its constant if it has one. -/
def memberValue (es : Enumerations) (enumeration : String) (c : Count) (key : String)
    (value : Node) : Node × Option Constant :=
  if !value.isAbsent then
    match evaluate es c.members value with
    | some x => (constantNode x, some x)
    | none => (qualify enumeration ((key, none) :: c.members) value, none)
  else
    match c.last, c.lastName with
    | some (.number x), _ => (numberNode (x + 1), some (.number (x + 1)))
    | _, some before =>
      (.made (.binary .add) [numberNode 1, property enumeration before], none)
    | _, none => (numberNode 0, some (.number 0))

def isText (n : Node) : Bool :=
  match n.kind with
  | .string _ _ => true
  | _ => false

/-- The statement that stores a member, and what is known behind it. -/
def memberStore (es : Enumerations) (enumeration : String) (c : Count) (m : Node) : Count × Node :=
  let key := memberName m
  let (value, constant) := memberValue es enumeration c key (m.child 1)
  let stored := assignment (property enumeration key) value
  let full :=
    if isText value then stored
    else assignment (.made (.index false) [name enumeration, stored]) (text key)
  (⟨c.members ++ [(key, constant)], constant, some key⟩, statement full m.span)

def memberStores (es : Enumerations) (enumeration : String) (c : Count) :
    List Node → Count × List Node
  | [] => (c, [])
  | m :: ms =>
    let (c, s) := memberStore es enumeration c m
    let (c, ss) := memberStores es enumeration c ms
    (c, s :: ss)

/-! ## The declaration -/

/-- Whether computing the members could do something else as well. -/
def acts (members : List Node) : Bool :=
  members.any fun m => match (m.child 1).kind with
    | .call _ _ | .construct _ => true
    | _ => false

/-- Where an enumeration stands. -/
structure Setting where
  /-- Whether at the top of the script, but not in an export. -/
  isGlobal : Bool
  /-- Whether its name is declared before. -/
  isKnown : Bool

/-- An enumeration as a declaration of a variable, or an assignment to a known one. -/
def enumStatement (es : Enumerations) (setting : Setting) (n : Node) : Enumerations × Node :=
  match (n.child 0).name? with
  | none => (es, n)
  | some enumeration =>
    let start : Count := { members := es.members enumeration }
    let (c, stores) := memberStores es enumeration start (n.items 1)
    let function := functionOf enumeration (stores ++ [.made .returnValue [name enumeration]])
    let object := Node.made .object
    let argument :=
      if setting.isGlobal || setting.isKnown then .made (.binary .or) [name enumeration, object]
      else object
    let value := callOf (!acts (n.items 1)) {} function [argument]
    let out :=
      if setting.isKnown then statement (assignment (name enumeration) value) n.span
      else variable_ (if setting.isGlobal then .var else .let) n.span (name enumeration) value
    (es.set enumeration c.members, out)

/-! ## Everywhere in a script -/

/-- Enumerations with their members are remembered from one to the next. -/
abbrev Enumerating := StateM Enumerations

def isEnum (n : Node) : Bool :=
  match n.kind with
  | .enumDef _ false => true
  | _ => false

/-- A statement of a list with its enumeration lowered, if it is one. -/
def enumHere (isTop : Bool) (known : List String) (n : Node) : Enumerating Node := do
  let place (isGlobal : Bool) (d : Node) : Setting :=
    ⟨isGlobal, (d.child 0).name?.any known.contains⟩
  if isEnum n then
    modifyGet fun es => let (es, m) := enumStatement es (place isTop n) n; (m, es)
  else
    match n with
    | .mk .exportDeclaration s [d] =>
      if isEnum d then
        let setting := place false d
        let m ← modifyGet fun es => let (es, m) := enumStatement es setting d; (m, es)
        return if setting.isKnown then m else .mk .exportDeclaration s [m]
      else return n
    | n => return n

mutual

/-- A tree without enumerations, except that the tree itself may be an exported one. -/
def enumsIn : Node → Enumerating Node
  | .mk k s cs => do
    if k == .exportDeclaration && cs.any isEnum then return .mk k s cs
    let isTop := match k with
      | .program _ => true
      | _ => false
    return .mk k s (← enumsAmong isTop [] cs)

/-- Nodes of a list without enumerations. `known` are the names that are declared before. -/
def enumsAmong (isTop : Bool) (known : List String) : List Node → Enumerating (List Node)
  | [] => return []
  | n :: ns => do
    let inside ← enumsIn n
    let here ← enumHere isTop known inside
    return here :: (← enumsAmong isTop (known ++ (declarations n).map (·.name)) ns)

end

/-- The script without enumerations. -/
def lowerEnums (root : Node) : Node := ((enumsIn root).run []).1

end PagePreview.Script.Lowering
