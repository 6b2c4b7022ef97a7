import PagePreview.Json.Printer
import PagePreview.Script.Compiler
import PagePreview.Script.Parser
import PagePreview.Text.Search

/-!
# The library behind markup

Markup in a script stands for calls of a library that the script refers to
by one name. If a script uses markup and does not bind that name, then the
library is imported in front of its statements.

The import is read from a text that is put together from the name and the
specifier, so what counts as a name is what the reader of scripts accepts
there.
-/

namespace PagePreview.Import

open Script Text

/-- The library for markup: what it is imported as, and from which package. -/
structure UiLibrary where
  package : String := "react"
  global : String := "React"
deriving DecidableEq, Repr

namespace UiLibrary

/-! ## Which specifiers are the library's -/

/-- Whether a text is the package, perhaps with a version. -/
def isVariant (package candidate : List Char) : Bool :=
  match dropFront? package candidate with
  | some [] => true
  | some (c :: _) => c == '@'
  | none => false

/-- What stands behind the last slash: everything, if there is none. -/
def lastPart (cs : List Char) : List Char := (cs.reverse.takeWhile (· != '/')).reverse

/-- Whether a specifier stands for the library: up to a query or fragment it is the package or
ends with it behind a slash, perhaps with a version. -/
def matchesSpecifier (ui : UiLibrary) (specifier : String) : Bool :=
  let s := specifier.toList.takeWhile fun c => !(c == '?' || c == '#')
  isVariant ui.package.toList s ||
    (s.contains '/' && isVariant ui.package.toList (lastPart s))

end UiLibrary

/-! ## What a script has -/

def isMarkup (n : Node) : Bool :=
  match n.kind with
  | .element _ | .fragment => true
  | _ => false

/-- Whether there is markup anywhere in a script. -/
def usesMarkup (p : Program) : Bool := p.root.any isMarkup

/-- Whether an import binds a name to a whole module or to its default. -/
def bindsModule (name : String) (specifier : Node) : Bool :=
  match specifier.kind with
  | .importDefault | .importNamespace => (specifier.child 0).name? == some name
  | _ => false

/-- Whether a declarator binds a name as a whole, not as a part of a pattern. -/
def declares (name : String) (declarator : Node) : Bool :=
  let target := declarator.child 0
  match target.kind with
  | .typed _ _ => (target.child 0).name? == some name
  | _ => target.name? == some name

/-- Whether a statement at the top of a script binds a name that markup can refer to. -/
def statementBinds (name : String) (n : Node) : Bool :=
  match n.kind with
  | .importFrom _ _ => (n.items 0).any (bindsModule name)
  | .variables _ _ => n.children.any (declares name)
  | .exportDeclaration =>
    match (n.child 0).kind with
    | .variables _ _ => (n.child 0).children.any (declares name)
    | _ => false
  | _ => false

def bindsName (name : String) (p : Program) : Bool := p.root.children.any (statementBinds name)

/-- Whether a script uses markup and does not bind the name of the library. -/
def needsLibrary (ui : UiLibrary) (p : Program) : Bool :=
  usesMarkup p && !bindsName ui.global p

/-- The specifier of an import declaration, if it is one of the library's. -/
def librarySource? (ui : UiLibrary) (n : Node) : Option String :=
  match n.kind, (n.child 1).string? with
  | .importFrom _ _, some s => if ui.matchesSpecifier s then some s else none
  | _, _ => none

/-- Where the library is imported from: from where the script already imports something of it, or
from its package. -/
def librarySpecifier (ui : UiLibrary) (p : Program) : String :=
  (p.root.children.findSome? (librarySource? ui)).getD ui.package

/-! ## Importing it -/

/-- The text that the import is read from. -/
def importText (name specifier : String) : String :=
  "import " ++ name ++ " from " ++ Json.quoted specifier ++ ";"

/-- The statement that imports a name, if the name can be imported. -/
def importStatement? (name specifier : String) : Option Node :=
  match Script.parse? false (importText name specifier) with
  | some p => p.root.children.head?
  | none => none

def isDirective (n : Node) : Bool :=
  match n.kind with
  | .directive _ => true
  | _ => false

/-- A script with another statement in front of its statements, behind its directives. -/
def prependStatement (statement : Node) (p : Program) : Program :=
  let directives := p.root.children.takeWhile isDirective
  let rest := p.root.children.dropWhile isDirective
  { p with root := .mk p.root.kind p.root.span (directives ++ statement :: rest) }

/-- The script with the import of the library, unless the name cannot be imported. -/
def addLibrary (ui : UiLibrary) (p : Program) : Except Fault Program :=
  match importStatement? ui.global (librarySpecifier ui p) with
  | some statement => .ok (prependStatement statement p)
  | none => .error (.inject ("`" ++ ui.global ++ "` is not a valid import binding"))

end PagePreview.Import
