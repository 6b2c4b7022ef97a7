import PagePreview.Script.Lowering.Namespaces

/-!
# Types are left out

What is left of a script when everything that only concerns types is taken
away. `eraseNode` does that for one node whose children have been done, so
`erase` is one `Node.map`. Parameters of constructors that are properties as
well are turned into assignments before, because their words are taken away.
-/

namespace PagePreview.Script.Lowering

/-! ## Parameters that are properties -/

/-- Whether a parameter is also a property of the object that is constructed. -/
def isProperty (n : Node) : Bool :=
  match n.kind with
  | .parameter m => m.access.isSome || m.isReadonly || m.isOverride
  | _ => false

/-- The name of a parameter. -/
def parameterName? (p : Node) : Option String :=
  let inner := match p.child 1 with
    | .mk .withDefault _ (p :: _) => p
    | p => p
  match inner with
  | .mk (.typed _ _) _ (p :: _) => p.name?
  | p => p.name?

/-- The assignments of the parameters that are properties. -/
def propertyAssignments (parameters : List Node) : List Node :=
  (parameters.filter isProperty).filterMap fun p =>
    (parameterName? p).map fun s =>
      statement (assignment (.made (.member false) [.made .self, name s]) (name s))

/-- Whether a statement is a call of the base class's constructor. -/
def callsSuper (n : Node) : Bool :=
  match n.kind, (n.child 0).kind, ((n.child 0).child 0).kind with
  | .expression, .call _ _, .superclass => true
  | _, _, _ => false

mutual

/-- A statement with assignments behind every call of the base class's constructor. -/
def behindSuper (assignments : List Node) : Node → Node
  | .mk .block s cs => .mk .block s (behindSupers assignments cs)
  | .mk .ifThen s cs => .mk .ifThen s (behindSuperParts assignments cs)
  | .mk .tryCatch s cs => .mk .tryCatch s (behindSuperParts assignments cs)
  | n => n

/-- The same for the parts of a statement, which are put in braces where that is needed. -/
def behindSuperParts (assignments : List Node) : List Node → List Node
  | [] => []
  | n :: ns =>
    (if callsSuper n then .mk .block n.span (n :: assignments) else behindSuper assignments n) ::
      behindSuperParts assignments ns

def behindSupers (assignments : List Node) : List Node → List Node
  | [] => []
  | n :: ns =>
    (if callsSuper n then n :: assignments else [behindSuper assignments n]) ++
      behindSupers assignments ns

end

/-- The statements of a constructor with the assignments in them: behind the call of the base
class's constructor, or in front if there is none. -/
def withAssignments (assignments statements : List Node) : List Node :=
  if statements.any (Node.any callsSuper) then behindSupers assignments statements
  else
    let isDirective (n : Node) : Bool := match n.kind with
      | .directive _ => true
      | _ => false
    statements.takeWhile isDirective ++ assignments ++ statements.dropWhile isDirective

/-- A constructor that assigns its properties. -/
def assignProperties (n : Node) : Node :=
  match n with
  | .mk (.method f true c m) s [ds, k, .mk fk fs [a, t, ps, r, .mk .body bs stmts]] =>
    match propertyAssignments ps.children with
    | [] => n
    | as =>
      .mk (.method f true c m) s
        [ds, k, .mk fk fs [a, t, ps, r, .mk .body bs (withAssignments as stmts)]]
  | n => n

/-! ## What is left of a node -/

/-- Whether a member of a class is gone when the script runs. -/
def isTypeMember (n : Node) : Bool :=
  match n.kind with
  | .method _ _ _ m => m.isAbstract || ((n.child 2).child 4).isAbsent
  | .field _ m => m.isAbstract || m.isDeclared
  | .indexSignature _ _ => true
  | _ => false

/-- Whether a parameter only says what `this` is. -/
def isSelfParameter (n : Node) : Bool :=
  match (n.child 1).kind with
  | .self => true
  | .typed _ _ => match ((n.child 1).child 0).kind with
    | .self => true
    | _ => false
  | _ => false

def keepModifiers (m : Modifiers) : Modifiers :=
  { isStatic := m.isStatic, isAccessor := m.isAccessor }

/-- A statement, or an empty block if it is gone when the script runs. -/
def inPlace (n : Node) : Node := if isTypeOnly n then .mk .block n.span [] else n

/-- A name with points as an expression. -/
def entityExpression : Node → Node
  | .mk .qualified s [a, b] => .mk (.member false) s [entityExpression a, b]
  | n => n

/-- What an import becomes that makes a name equal to something. -/
def importedValue (span : Span) (target reference : Node) : Node :=
  match reference with
  | .mk .externalModule _ [s] => variable_ .const span target (callOf false {} (name "require") [s])
  | r => variable_ .var span target (entityExpression r)

def filterGroup (p : Node → Bool) (n : Node) : Node := .mk n.kind n.span (n.children.filter p)

/-- A member of a class without the words that concern types, and without its type. -/
def eraseMember (n : Node) : Node :=
  match n with
  | .mk (.method f isConstructor c m) s cs => .mk (.method f isConstructor c (keepModifiers m)) s cs
  | .mk (.field c m) s [ds, k, _, v] => .mk (.field c (keepModifiers m)) s [ds, k, .absent, v]
  | n => n

/-- The members of a class that are there when the script runs. -/
def eraseMembers (ms : Node) : Node :=
  .mk ms.kind ms.span ((ms.children.filter (!isTypeMember ·)).map eraseMember)

/-- A node without what concerns types, if that has been done for its children. -/
def eraseNode (n : Node) : Node :=
  match n with
  | .mk .asType _ (e :: _) | .mk .satisfiesType _ (e :: _) | .mk .nonNull _ (e :: _)
  | .mk .instantiation _ (e :: _) | .mk (.typed _ _) _ (e :: _) => e
  | .mk (.parameter _) s cs => .mk (.parameter {}) s cs
  | .mk (.function r st d) s [f, _, ps, _, b] =>
    .mk (.function r st d) s [f, .absent, filterGroup (!isSelfParameter ·) ps, .absent, b]
  | .mk (.arrow a) s [_, ps, _, b] => .mk (.arrow a) s [.absent, ps, .absent, b]
  | .mk (.call o p) s [f, _, as] => .mk (.call o p) s [f, .absent, as]
  | .mk (.construct p) s [f, _, as] => .mk (.construct p) s [f, .absent, as]
  | .mk .tagged s [f, _, t] => .mk .tagged s [f, .absent, t]
  | .mk (.element c) s [e, _, as, cs] => .mk (.element c) s [e, .absent, as, cs]
  | .mk (.classDef st m) s [ds, i, _, base, _, _, ms] =>
    .mk (.classDef st { isDeclared := m.isDeclared }) s
      [ds, i, .absent, base, .absent, .absent, eraseMembers ms]
  | .mk (.importEquals false) s [i, r] => importedValue s i r
  | .mk .exportAssign s [e] =>
    statement (assignment (member (name "module") "exports") e) s
  | .mk (.program h) s cs => .mk (.program h) s (cs.filter (!isTypeOnly ·))
  | .mk .body s cs => .mk .body s (cs.filter (!isTypeOnly ·))
  | .mk .block s cs => .mk .block s (cs.filter (!isTypeOnly ·))
  | .mk .staticBlock s cs => .mk .staticBlock s (cs.filter (!isTypeOnly ·))
  | .mk .case s (t :: cs) => .mk .case s (t :: cs.filter (!isTypeOnly ·))
  | .mk .ifThen s [t, yes, no] =>
    .mk .ifThen s [t, inPlace yes, if isTypeOnly no then .absent else no]
  | .mk .forLoop s [a, t, u, b] => .mk .forLoop s [a, t, u, inPlace b]
  | .mk .forIn s [t, o, b] => .mk .forIn s [t, o, inPlace b]
  | .mk (.forOf w) s [t, o, b] => .mk (.forOf w) s [t, o, inPlace b]
  | .mk .whileLoop s [t, b] => .mk .whileLoop s [t, inPlace b]
  | .mk .doWhile s [b, t] => .mk .doWhile s [inPlace b, t]
  | .mk (.labeled l) s [b] => .mk (.labeled l) s [inPlace b]
  | n => n

/-- The script without types. -/
def eraseTypes (root : Node) : Node := (root.map assignProperties).map eraseNode

end PagePreview.Script.Lowering
