import PagePreview.Import.Origin
import PagePreview.Script.Syntax

/-!
# Resolving the imports of a script

Three shapes of node have a specifier: an import declaration, an export of
something from elsewhere, and a call of `import` whose first argument is a
text. `sourcePlace?` says where it stands among the children, and everything
else follows from that: `resolveImports` maps one function over the tree, and
the specifiers that it changes are counted in the tree it is given.
-/

namespace PagePreview.Import

open Script

/-- Which child of a node is the specifier of a module, if there is one. -/
def sourcePlace? : Kind → Option Nat
  | .importFrom _ _ | .exportNamed _ | .exportAll _ => some 1
  | .importCall _ => some 0
  | _ => none

/-- The specifier of a node. -/
def specifier? (n : Node) : Option String :=
  match sourcePlace? n.kind with
  | some i => (n.child i).string?
  | none => none

/-- The specifiers in a tree, as often as they occur. -/
def specifiers (n : Node) : List String := n.nodes.filterMap specifier?

/-- The value that a specifier is given: the address it resolves to, if there is one. -/
def resolved (o : Origin) (specifier : String) : String := (o.resolve specifier).getD specifier

/-- A specifier with the value it resolves to. -/
def resolveText (o : Origin) (n : Node) : Node :=
  match n with
  | .mk (.string v lossy) s cs => .mk (.string (resolved o v) lossy) s cs
  | n => n

/-- A node with its own specifier resolved. -/
def resolveSource (o : Origin) (n : Node) : Node :=
  match sourcePlace? n.kind with
  | some i => .mk n.kind n.span (n.children.modify i (resolveText o))
  | none => n

/-- How many specifiers of a tree resolve to something else. -/
def changes (o : Origin) (n : Node) : Nat :=
  (specifiers n).countP fun v => resolved o v != v

/-- The tree with every specifier resolved. -/
def resolveTree (o : Origin) (n : Node) : Node := n.map (resolveSource o)

/-- The script with every specifier resolved, and how many of them have another value now. -/
def resolveImports (o : Origin) (p : Program) : Program × Nat :=
  ({ p with root := resolveTree o p.root }, changes o p.root)

end PagePreview.Import
