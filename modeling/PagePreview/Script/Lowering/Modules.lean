import PagePreview.Script.Lowering.Names

/-!
# Imports and exports that are left

Imports and exports of types are taken away. When that leaves no import and
no export, an empty export says that the script still is a module.
-/

namespace PagePreview.Script.Lowering

/-- What happens to a statement. -/
inductive Fate where
  /-- It is no import and no export. -/
  | plain (n : Node)
  | kept (n : Node)
  | dropped

/-- Whether an export stands for a type. -/
def exportsType (ds : List Declaration) (hasSource : Bool) (n : Node) : Bool :=
  match n.kind with
  | .exportSpecifier true => true
  | .exportSpecifier false =>
    match (n.child 0).name? with
    | some s => !hasSource && standsForType ds s
    | none => false
  | _ => false

def exportFate (ds : List Declaration) (n : Node) : Fate :=
  let names := n.child 0
  let left := names.children.filter (!exportsType ds (!(n.child 1).isAbsent) ·)
  if left.isEmpty && !names.children.isEmpty then .dropped
  else .kept (.mk n.kind n.span (.mk names.kind names.span left :: n.children.drop 1))

/-- An import without types. One that imports nothing else is done only for its effects. -/
def importLeft (n : Node) : Node :=
  let names := n.child 0
  if names.isAbsent then n
  else
    let isType (s : Node) : Bool := match s.kind with
      | .importNamed true => true
      | _ => false
    let names : Node := match names.children.filter (!isType ·) with
      | [] => .absent
      | left => .mk names.kind names.span left
    .mk n.kind n.span (names :: n.children.drop 1)

/-- Whether a declaration is gone when the script runs, as long as it stands in an export. -/
def isGone (d : Node) : Bool :=
  match d.kind with
  | .typeAlias _ | .interfaceDef _ | .enumDef _ _ | .moduleDef _ _ | .importEquals _
  | .variables _ true | .function _ _ true => true
  | .function _ .declaration _ => (d.child 4).isAbsent
  | .classDef _ m => m.isDeclared
  | _ => false

/-- What happens to a statement at the top of a script that declares all these names. -/
def fate (ds : List Declaration) (n : Node) : Fate :=
  match n.kind with
  | .importFrom true _ | .exportNamed true | .exportAll true => .dropped
  | .importFrom false _ => .kept (importLeft n)
  | .exportNamed false => exportFate ds n
  | .exportAll false => .kept n
  | .exportDeclaration => if isGone (n.child 0) then .dropped else .kept n
  | .exportDefault =>
    if isGone (n.child 0) || (n.child 0).name?.any (standsForType ds) then .dropped else .kept n
  | _ => .plain n

def Fate.node? : Fate → Option Node
  | plain n | kept n => some n
  | dropped => none

def Fate.isKept : Fate → Bool
  | kept _ => true
  | _ => false

def Fate.isDropped : Fate → Bool
  | dropped => true
  | _ => false

/-- The export that exports nothing. -/
def emptyExport : Node := .made (.exportNamed false) [.group [], .absent, .absent]

/-- The script without imports and exports of types. -/
def lowerModules (ds : List Declaration) (root : Node) : Node :=
  let fates := root.children.map (fate ds)
  let left := fates.filterMap Fate.node?
  let isBare := fates.any Fate.isDropped && !fates.any Fate.isKept
  .mk root.kind root.span (if isBare then left ++ [emptyExport] else left)

end PagePreview.Script.Lowering
