import PagePreview.Import.Library
import PagePreview.Import.Resolution
import PagePreview.Script.Lowering
import PagePreview.Script.Printer

/-!
# The compiler

`compile` reads a script, adds the import of the library for markup where it
is needed, resolves the imports, lowers types and markup, and prints what has
come out. The import is added first, so that it is resolved like the others.
A script that cannot be compiled is handed back as it is.
-/

namespace PagePreview.Script

open Import

/-- What a script is compiled for. -/
structure Target where
  origin : Origin
  library : UiLibrary := {}

/-- A script that is being compiled, and what has been done to it. -/
structure Draft where
  program : Program
  injected : Bool := false
  resolved : Nat := 0

/-- A script read from its text. -/
def read (source : String) : Except Fault Program :=
  match parse? true source with
  | some p => .ok p
  | none => .error (.parse "unexpected token")

/-- Adds the library to a script of a page that needs it. -/
def supply (t : Target) (mode : Mode) (p : Program) : Except Fault Draft :=
  if mode == .document && needsLibrary t.library p then
    (addLibrary t.library p).map fun q => { program := q, injected := true }
  else .ok { program := p }

/-- Resolves the imports of a script. -/
def resolveDraft (t : Target) (d : Draft) : Draft :=
  let (p, n) := resolveImports t.origin d.program
  { d with program := p, resolved := n }

/-- Lowers types and markup. -/
def lowerDraft (t : Target) (d : Draft) : Except Fault Draft :=
  match lower? t.library.global d.program with
  | some p => .ok { d with program := p }
  | none => .error (.transform "not supported")

/-- What a script becomes. -/
def draft (t : Target) (mode : Mode) (source : String) : Except Fault Draft := do
  let d ← supply t mode (← read source)
  match mode with
  | .format => return d
  | _ => lowerDraft t (resolveDraft t d)

/-- Compiles a script, or keeps it. -/
def compile (t : Target) : Compiler := fun r =>
  match draft t r.mode r.source with
  | .ok d => { javascript := d.program.print, injected := d.injected, resolved := d.resolved }
  | .error e => .keep r.source e

end PagePreview.Script
