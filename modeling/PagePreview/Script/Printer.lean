import PagePreview.Script.Printer.Statements

/-!
# Printing scripts

`Program.print` writes a script with its comments. The text is made from the
tree alone: where the source had blanks, parentheses that change nothing, or
other quotes makes no difference.
-/

namespace PagePreview.Script

/-- Prints a node whose height is at most the fuel. -/
def Printer.within : (fuel : Nat) → Shapes
  | 0, _, _ => pure ()
  | fuel + 1, n, p => Printer.statement (Printer.within fuel) n p

namespace Program

/-- What the printer leaves behind. -/
def output (p : Program) : Output :=
  (Printer.within p.root.height p.root {} |>.run { comments := p.comments }).2

/-- The text of a script. -/
def print (p : Program) : String := String.ofList p.output.text.reverse

end Program

end PagePreview.Script
