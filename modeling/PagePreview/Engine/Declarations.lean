import PagePreview.Script.Syntax

/-!
# What a piece of script declares

Names are bound before the statements that declare them run. Variables
declared with `var` belong to the whole function, other declarations to the
statements they stand among.
-/

namespace PagePreview.Engine

open Script

mutual

/-- The names that a pattern binds. -/
def boundNames : Node → List String
  | .mk (.name s) _ _ => [s]
  | .mk .objectPattern _ ps => boundNamesAmong ps
  | .mk .arrayPattern _ ps => boundNamesAmong ps
  | .mk (.propertyPattern _ _) _ [_, p] => boundNames p
  | .mk .withDefault _ [p, _] => boundNames p
  | .mk .rest _ [p] => boundNames p
  | .mk (.typed _ _) _ [p, _] => boundNames p
  | .mk (.parameter _) _ [_, p] => boundNames p
  | .mk .declarator _ [p, _] => boundNames p
  | _ => []

def boundNamesAmong : List Node → List String
  | [] => []
  | n :: ns => boundNames n ++ boundNamesAmong ns

end

mutual

/-- The names that a statement declares with `var`. -/
def variableNames : Node → List String
  | .mk (.variables .var _) _ ds => boundNamesAmong ds
  | .mk .block _ ns => variableNamesAmong ns
  | .mk .ifThen _ [_, a, b] => variableNames a ++ variableNames b
  | .mk .forLoop _ [i, _, _, b] => variableNames i ++ variableNames b
  | .mk .forIn _ [t, _, b] => variableNames t ++ variableNames b
  | .mk (.forOf _) _ [t, _, b] => variableNames t ++ variableNames b
  | .mk .whileLoop _ [_, b] => variableNames b
  | .mk .doWhile _ [b, _] => variableNames b
  | .mk (.labeled _) _ [b] => variableNames b
  | .mk .withObject _ [_, b] => variableNames b
  | .mk .switch _ [_, .mk .group _ cs] => variableNamesAmong cs
  | .mk .case _ ns => variableNamesAmong ns
  | .mk .tryCatch _ ns => variableNamesAmong ns
  | .mk .handler _ [_, b] => variableNames b
  | .mk .exportDeclaration _ [d] => variableNames d
  | _ => []

def variableNamesAmong : List Node → List String
  | [] => []
  | n :: ns => variableNames n ++ variableNamesAmong ns

end

/-- A declaration behind `export`. -/
def exported : Node → Node
  | .mk .exportDeclaration _ [d] => d
  | .mk .exportDefault _ [d] => d
  | n => n

/-- The functions that stand among statements. -/
def declaredFunctions (ns : List Node) : List (String × Node) :=
  ns.filterMap fun n =>
    let d := exported n
    match d with
    | .mk (.function _ .declaration _) _ (.mk (.name s) _ _ :: _) => some (s, d)
    | _ => none

/-- The names that stand among statements and are declared by `let`, `const` or `class`, and
whether they are constant. -/
def declaredNames (ns : List Node) : List (String × Bool) :=
  ns.flatMap fun n =>
    match exported n with
    | .mk (.variables .var _) _ _ => []
    | .mk (.variables kind _) _ ds => (boundNamesAmong ds).map fun s => (s, kind != .let)
    | .mk (.classDef .declaration _) _ (_ :: .mk (.name s) _ _ :: _) => [(s, false)]
    | _ => []

/-- The private names that the members of a class declare. -/
def privateNames (members : List Node) : List String :=
  (members.filterMap fun m =>
    match m with
    | .mk (.method _ _ false _) _ (_ :: .mk (.privateName s) _ _ :: _) => some s
    | .mk (.field false _) _ (_ :: .mk (.privateName s) _ _ :: _) => some s
    | _ => none).eraseDups

/-- Whether statements begin with the directive for strict rules. -/
def isStrict (ns : List Node) : Bool :=
  (ns.takeWhile fun n => n.kind matches .directive _).any fun n =>
    match n.kind with
    | .directive raw => raw == "use strict"
    | _ => false

/-- How many arguments the parameters ask for: those in front of the first default or rest. -/
def parameterCount (ps : List Node) : Nat :=
  (ps.takeWhile fun p =>
    match p with
    | .mk (.parameter _) _ [_, .mk .withDefault _ _] => false
    | .mk (.parameter _) _ [_, .mk .rest _ _] => false
    | _ => true).length

end PagePreview.Engine
