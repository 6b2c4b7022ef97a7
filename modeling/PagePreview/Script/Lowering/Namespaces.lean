import PagePreview.Script.Lowering.Names

/-!
# Namespaces become functions

A namespace is a variable that holds an object, and a function that is called
with that object at once. What the namespace exports is assigned to the
object. A namespace that declares nothing is left out, and so is one that is
only declared.
-/

namespace PagePreview.Script.Lowering

/-- Namespaces need new names, and some cannot be lowered. -/
abbrev Naming := StateT (List String) Option

def fresh (base : String) : Naming String := do
  let used ← get
  let s := freshName used base
  set (s :: used)
  return s

/-- Whether a statement is gone when the script runs. -/
def isTypeOnly (n : Node) : Bool :=
  match n.kind with
  | .typeAlias _ | .interfaceDef _ | .enumDef _ true | .moduleDef _ _ | .importEquals true
  | .variables _ true | .function _ _ true | .exportAsNamespace _ => true
  | .function _ _ false => (n.child 4).isAbsent
  | .classDef _ m => m.isDeclared
  | _ => false

/-- The call of the function that a namespace becomes. -/
def namespaceCall (span : Span) (name_ inner : String) (outer : Option String)
    (statements : List Node) : Node :=
  let object := Node.made .object
  let own : Node := match outer with
    | none => .made .paren [assignment (name name_) object]
    | some o =>
      let property := member (name o) name_
      .made .paren [assignment (name name_)
        (.made (.binary .or) [property, .made .paren [assignment property object]])]
  statement (callOf false span (.made .paren [functionOf inner statements])
    [.made (.binary .or) [name name_, own]]) span

/-- A namespace with its body: the declaration of its variable unless there is one, and the call.
`export_` is the place of the export that it stands in at the top. -/
def namespaceStatements (isNew : Bool) (export_ : Option Span) (span : Span)
    (name_ inner : String) (outer : Option String) (statements : List Node) : List Node :=
  if statements.isEmpty then []
  else
    let own := variable_ .let {} (name name_) .absent
    let declaration := match export_ with
      | some s => Node.mk .exportDeclaration s [own]
      | none => own
    (if isNew then [declaration] else []) ++
      [namespaceCall span name_ inner outer statements]

/-- The statement that exports a name from the namespace with the object of that name. -/
def exportTo (object exported : String) : Node :=
  assignment (member (name object) exported) (name exported)

/-- Gives the object of a namespace the value of an exported variable. -/
def exportedDeclarator (object : String) (d : Node) : Node :=
  match boundNames (d.child 0), (d.child 1).isAbsent with
  | [s], false =>
    .mk d.kind d.span [d.child 0, assignment (member (name object) s) (d.child 1)]
  | _, _ => d

def isPlainTarget (d : Node) : Bool :=
  match (d.child 0).kind with
  | .name _ | .typed _ _ => true
  | _ => false

/-- What an exported declaration of a namespace becomes. -/
def exportedMember (object : String) (d : Node) : Naming (List Node) :=
  if isTypeOnly d then return []
  else
    match d.kind with
    | .variables kind _ =>
      if kind != .const then failure
      else if d.children.all isPlainTarget then
        return [.mk d.kind d.span (d.children.map (exportedDeclarator object))]
      else
        let names := d.children.flatMap fun c => boundNames (c.child 0)
        return [d, statement (.made .sequence (names.map (exportTo object)))]
    | .importEquals _ => return []
    | _ =>
      return d :: (declared d).map fun x => statement (exportTo object x.name)

/-- The names of values that statements declare. -/
def valueNames (n : Node) : List String :=
  ((declarations n).filter (·.isValue)).map (·.name)

mutual

/-- The statements of a namespace's body. `object` is the name of its object. -/
def namespaceBody (object : String) : Node → Naming (List Node)
  | .mk .block _ ns => members object [] ns
  | .mk (.moduleDef _ _) s [.mk (.name inner) _ _, b] => do
    let uid ← fresh inner
    let ns ← namespaceBody uid b
    return namespaceStatements true none s inner uid (some object) ns
  | _ => return []

/-- The statements of a namespace. `known` are the names of values declared before. -/
def members (object : String) (known : List String) : List Node → Naming (List Node)
  | [] => return []
  | n :: ns => do
    let here ← memberStatement object known n
    return here ++ (← members object (known ++ valueNames n) ns)

def memberStatement (object : String) (known : List String) : Node → Naming (List Node)
  | .mk (.moduleDef _ isDeclared) s [.mk (.name inner) _ _, b] => do
    if isDeclared then return []
    let uid ← fresh inner
    let ns ← namespaceBody uid b
    return namespaceStatements (!known.contains inner) none s inner uid none ns
  | .mk .exportDeclaration _ [.mk (.moduleDef _ isDeclared) s [.mk (.name inner) _ _, b]] => do
    if isDeclared then return []
    let uid ← fresh inner
    let ns ← namespaceBody uid b
    return namespaceStatements (!known.contains inner) none s inner uid (some object) ns
  | .mk .exportDeclaration _ [d] => exportedMember object d
  | .mk (.exportNamed _) _ _ => return []
  | .mk (.exportAll _) _ _ => return []
  | n => return if isTypeOnly n then [] else [n]

end

/-- A statement at the top of a script. -/
def topStatement (known : List String) (n : Node) : Naming (List Node) :=
  match n with
  | .mk (.moduleDef k isDeclared) s [i, b] => top none k isDeclared s i b n
  | .mk .exportDeclaration e [.mk (.moduleDef k isDeclared) s [i, b]] =>
    top (some e) k isDeclared s i b n
  | n => return [n]
where
  top (export_ : Option Span) (keyword : String) (isDeclared : Bool) (s : Span) (i b n : Node) :
      Naming (List Node) := do
    if isDeclared || keyword == "global" then return [n]
    match i.name? with
    | none => failure
    | some inner =>
      let uid ← fresh inner
      let ns ← namespaceBody uid b
      return namespaceStatements (!known.contains inner) export_ s inner uid none ns

def topStatements (known : List String) : List Node → Naming (List Node)
  | [] => return []
  | n :: ns => do
    let here ← topStatement known n
    return here ++ (← topStatements (known ++ valueNames n) ns)

/-- The script without namespaces. -/
def lowerNamespaces (root : Node) : Option Node := do
  let (ns, _) ← (topStatements [] root.children).run (usedNames root)
  return .mk root.kind root.span ns

end PagePreview.Script.Lowering
