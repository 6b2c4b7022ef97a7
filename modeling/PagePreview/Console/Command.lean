import PagePreview.Json.Printer
import PagePreview.Script.Compiler
import PagePreview.Text.Hex
import PagePreview.Text.Search
import PagePreview.Text.Utf8

/-!
# Commands for an execution context

A line of the console is sent to an execution context as a piece of script
that imports a module. The module is written into its address, so whatever
the line contains has to survive two quotings: it is a text within the
module's script, and the module is a part of an address within the command.

The address consists of letters, digits, escapes and a few signs, none of
which can end the text that it stands in.
-/

namespace PagePreview.Console

open Text

/-! ## Parts of an address -/

/-- Whether a byte stands for itself in a part of an address. -/
def isPlainByte (b : UInt8) : Bool :=
  let c := Char.ofNat b.toNat
  c.isAlphanum || ['-', '_', '.', '!', '~', '*', '\'', '(', ')'].contains c

/-- A byte as a percent sign and two digits. -/
def escapedByte (b : UInt8) : List Char := '%' :: Hex.byteUpper b

def encodeByte (b : UInt8) : List Char :=
  if isPlainByte b then [Char.ofNat b.toNat] else escapedByte b

/-- A text as a part of an address. -/
def encodeComponent (s : String) : String :=
  String.ofList ((Utf8.encode s.toList).flatMap encodeByte)

/-- The value of a byte that is a hexadecimal digit. -/
def digitValue? (b : UInt8) : Option Nat := Hex.value? (Char.ofNat b.toNat)

/-- The byte that two digits behind a percent sign stand for. -/
def escapeValue? (high low : UInt8) : Option UInt8 :=
  match digitValue? high, digitValue? low with
  | some h, some l => some (UInt8.ofNat (h * 16 + l))
  | _, _ => none

/-- The bytes with their escapes replaced. What only looks like an escape stays as it is. -/
def decodeBytes : List UInt8 → List UInt8
  | [] => []
  | [b] => [b]
  | [b, c] => [b, c]
  | b :: h :: l :: rest =>
    if b == 0x25 then
      match escapeValue? h l with
      | some v => v :: decodeBytes rest
      | none => b :: decodeBytes (h :: l :: rest)
    else b :: decodeBytes (h :: l :: rest)

/-- The text that a part of an address stands for. -/
def decodeComponent (s : String) : String :=
  String.ofList (Utf8.decodeLossy (decodeBytes (Utf8.encode s.toList)))

/-! ## Modules in addresses -/

/-- What the address of a module begins with that is written into it. -/
def moduleMark : String := "data:text/javascript,"

/-- The script of a module that is written into its address. -/
def moduleSource? (address : String) : Option String :=
  (dropFront? moduleMark.toList address.toList).map fun body => decodeComponent (String.ofList body)

/-- The module that evaluates a script and logs its value. -/
def evaluatingModule (script : String) : String := "console.log(eval(" ++ Json.quoted script ++ "))"

/-- The address of a module, with no apostrophe in it. -/
def moduleAddress (source : String) : String :=
  moduleMark ++ String.ofList
    (replaceAll ['\''] "%27".toList (encodeComponent source).toList)

/-- The script that imports a module. What goes wrong is logged. -/
def importing (address : String) : String :=
  "import('" ++ address ++ "').catch(console.error)"

/-- The script that runs a line of the console. -/
def wrapCommand (compile : Script.Compiler) (line : String) : String :=
  importing (moduleAddress (evaluatingModule (compile (Script.Request.ofCommand line)).javascript))

end PagePreview.Console
