/-!
# What a page asks of a script compiler

A `Compiler` is a function from requests to results, so nothing it does can
depend on what it was asked before. It never fails: when a script cannot be
processed the result carries the script as it was and says why.

Everything that handles pages is written for an arbitrary compiler; the one
that reads and prints scripts is `Script.Pipeline`.
-/

namespace PagePreview.Script

/-- What is done to a script besides reading and printing it. -/
inductive Mode where
  /-- A script of a page: imports are resolved, types and markup are lowered, and the library
  that markup needs is imported. -/
  | document
  /-- A line of the console: as a script of a page, but nothing is imported. -/
  | command
  /-- Nothing. -/
  | format
deriving DecidableEq, Repr

structure Request where
  source : String
  /-- Names the script in reports. -/
  id : String
  mode : Mode

/-- Why a script was left as it was. -/
inductive Fault where
  | parse (detail : String)
  | transform (detail : String)
  | inject (detail : String)
deriving DecidableEq, Repr

def Fault.message : Fault → String
  | .parse detail => "parse failed: " ++ detail
  | .transform detail => "transform failed: " ++ detail
  | .inject detail => "import injection failed: " ++ detail

structure Result where
  javascript : String
  /-- Whether an import of the library for markup was added. -/
  injected : Bool := false
  /-- How many import specifiers were given another value. -/
  resolved : Nat := 0
  fault : Option Fault := none

/-- The result that keeps a script because of a fault. -/
def Result.keep (source : String) (fault : Fault) : Result :=
  { javascript := source, fault := some fault }

abbrev Compiler := Request → Result

namespace Request

/-- The request for the script with that number on a page. -/
def ofScript (mode : Mode) (source : String) (index : Nat) : Request :=
  ⟨source, "inline-" ++ String.ofList (Nat.toDigits 10 index), mode⟩

/-- The request for a line of the console. -/
def ofCommand (line : String) : Request := ⟨line, "<command>", .command⟩

end Request

end PagePreview.Script
