import PagePreview.Script.Syntax

/-!
# The names that statements declare

A name can be declared several times. What matters about a declaration is
whether it stands for a value when the script runs, or only for a type, and
whether it is ambient, that is, only says what is there already.
-/

namespace PagePreview.Script.Lowering

structure Declaration where
  name : String
  isValue : Bool := true
  isAmbient : Bool := false
deriving DecidableEq, Repr

mutual

/-- The names that a pattern binds, in order. -/
def boundNames : Node → List String
  | .mk (.name s) _ _ => [s]
  | .mk .objectPattern _ ps => boundAmong ps
  | .mk .arrayPattern _ ps => boundAmong ps
  | .mk (.propertyPattern _ _) _ [_, p] => boundNames p
  | .mk .withDefault _ (p :: _) => boundNames p
  | .mk .rest _ (p :: _) => boundNames p
  | .mk (.typed _ _) _ (p :: _) => boundNames p
  | _ => []

def boundAmong : List Node → List String
  | [] => []
  | p :: ps => boundNames p ++ boundAmong ps

end

mutual

/-- The names of the variables that a statement declares for the whole function around it. -/
def hoistedNames : Node → List String
  | .mk (.variables .var _) _ ds => ds.flatMap fun d => boundNames (d.child 0)
  | .mk (.function _ _ _) _ _ => []
  | .mk (.arrow _) _ _ => []
  | .mk (.classDef _ _) _ _ => []
  | .mk (.moduleDef _ _) _ _ => []
  | .mk _ _ cs => hoistedAmong cs

def hoistedAmong : List Node → List String
  | [] => []
  | n :: ns => hoistedNames n ++ hoistedAmong ns

end

/-- Whether a module contains nothing that it could be made from when the script runs. -/
def isHollow : Node → Bool
  | .mk .block _ ns => ns.isEmpty
  | .mk (.moduleDef _ _) _ [_, b] => isHollow b
  | _ => true

def named (n : Node) (isValue isAmbient : Bool) : List Declaration :=
  n.name?.toList.map fun name => { name, isValue, isAmbient }

/-- What a declaration declares. -/
def declared (n : Node) : List Declaration :=
  match n.kind with
  | .variables _ isAmbient =>
    (n.children.flatMap fun d => boundNames (d.child 0)).map fun name => { name, isAmbient }
  | .function _ .declaration isAmbient => named (n.child 0) true isAmbient
  | .classDef .declaration m => named (n.child 1) true m.isDeclared
  | .enumDef _ isAmbient => named (n.child 0) true isAmbient
  | .moduleDef _ isAmbient => named (n.child 0) (!isHollow (n.child 1)) isAmbient
  | .typeAlias isAmbient | .interfaceDef isAmbient => named (n.child 0) false isAmbient
  | .importEquals typeOnly => named (n.child 0) (!typeOnly) false
  | _ => []

/-- What a statement declares at its own level. -/
def declarations (n : Node) : List Declaration :=
  match n.kind with
  | .importFrom typeOnly _ => (n.items 0).flatMap fun s =>
    match s.kind with
    | .importNamed alsoTypeOnly => named (s.child 1) (!typeOnly && !alsoTypeOnly) false
    | _ => named (s.child 0) (!typeOnly) false
  | .exportDeclaration | .exportDefault => declared (n.child 0)
  | _ =>
    match declared n with
    | [] => (hoistedNames n).map fun name => { name }
    | ds => ds

/-- Whether a name is declared, but not as something that is there when the script runs only
because of these declarations. -/
def standsForType (ds : List Declaration) (name : String) : Bool :=
  let own := ds.filter (·.name == name)
  !own.isEmpty && (own.all (!·.isValue) || own.all (·.isAmbient))

/-! ## New names -/

/-- All names that occur in a tree, for whatever. -/
def usedNames (n : Node) : List String := n.nodes.filterMap Node.name?

/-- A name without underscores in front and digits behind. -/
def stem (name : String) : List Char :=
  ((name.toList.dropWhile (· == '_')).reverse.dropWhile Char.isDigit).reverse

/-- The name with the least number from `n` on that is not in use. -/
def freshFrom (used : List String) (base : List Char) : (steps n : Nat) → String
  | 0, n => String.ofList ('_' :: base ++ Nat.toDigits 10 n)
  | steps + 1, n =>
    let name := String.ofList ('_' :: base ++ Nat.toDigits 10 n)
    if used.contains name then freshFrom used base steps (n + 1) else name

/-- A name made from another one that is not in use: with an underscore in front, and a number
behind if it needs one. -/
def freshName (used : List String) (name : String) : String :=
  let plain := String.ofList ('_' :: stem name)
  if used.contains plain then freshFrom used (stem name) used.length 2 else plain

/-! ## Nodes -/

def name (s : String) : Node := .made (.name s)

def text (s : String) : Node := .made (.string s false)

def member (object : Node) (property : String) : Node :=
  .made (.member false) [object, name property]

def assignment (target value : Node) : Node := .made (.assign none) [target, value]

def statement (e : Node) (span : Span := {}) : Node := .mk .expression span [e]

/-- A declaration of one variable. -/
def variable_ (kind : VariableKind) (span : Span) (target value : Node) : Node :=
  .mk (.variables kind false) span [.made .declarator [target, value]]

/-- A function without a name, of one parameter. -/
def functionOf (parameter : String) (statements : List Node) : Node :=
  .made (.function {} .expression false)
    [.absent, .absent, .group [.made (.parameter {}) [.absent, name parameter]], .absent,
      .made .body statements]

def callOf (pure : Bool) (span : Span) (callee : Node) (arguments : List Node) : Node :=
  .mk (.call false pure) span [callee, .absent, .group arguments]

end PagePreview.Script.Lowering
