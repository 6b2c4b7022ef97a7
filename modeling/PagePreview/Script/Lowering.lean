import PagePreview.Script.Lowering.Enums
import PagePreview.Script.Lowering.Markup
import PagePreview.Script.Lowering.Modules
import PagePreview.Script.Lowering.Types

/-!
# Lowering scripts

A script with types and markup becomes one without. Namespaces and
enumerations become code first, because they are declared like types; then
types are left out and markup becomes calls; at last imports and exports of
what is gone are taken away. Everything else stays as it is.
-/

namespace PagePreview.Script

open Lowering

/-- The script without types and markup. `library` is what markup is called from unless the
comments of the script name something else. There is no such script if a piece of markup or a
namespace cannot be lowered, or if a comment asks for another way of lowering markup. -/
def lower? (library : String) (p : Program) : Option Program := do
  let root ← lowerNamespaces p.root
  let makers ← Makers.ofProgram? library p.comments
  let root ← lowerMarkup makers (eraseTypes (lowerEnums root))
  return { p with root := lowerModules (p.root.children.flatMap declarations) root }

end PagePreview.Script
