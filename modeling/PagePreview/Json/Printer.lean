import PagePreview.Decimal.Notation
import PagePreview.Json.Basic
import PagePreview.Text.Hex

/-!
# Writing JSON

The compact form: no blanks, fields in their order.
-/

namespace PagePreview.Json

open Decimal Text

/-! ## Text in double quotes

`quote` writes a text as a JSON string. Quotes, backslashes and control
characters are escaped; everything else stands for itself.
-/

/-- How one character is written inside the quotes. -/
def escaped (c : Char) : List Char :=
  match c with
  | '"' => ['\\', '"']
  | '\\' => ['\\', '\\']
  | '\x08' => ['\\', 'b']
  | '\x0c' => ['\\', 'f']
  | '\n' => ['\\', 'n']
  | '\r' => ['\\', 'r']
  | '\t' => ['\\', 't']
  | c => if c.toNat < 0x20 then ['\\', 'u', '0', '0'] ++ Hex.digits 2 c.toNat else [c]

def quote (cs : List Char) : List Char := '"' :: cs.flatMap escaped ++ ['"']

def quoted (s : String) : String := String.ofList (quote s.toList)

/-! ## Values -/

mutual
def chars : Json → List Char
  | .null => "null".toList
  | .bool true => "true".toList
  | .bool false => "false".toList
  | .int i => intDigits i
  | .float x => if x.isFinite then Notation.wire.render x else "null".toList
  | .string s => quote s.toList
  | .array [] => ['[', ']']
  | .array (item :: rest) => '[' :: item.chars ++ itemsChars rest ++ [']']
  | .object [] => ['\x7b', '\x7d']
  | .object (field :: rest) => '\x7b' :: fieldChars field ++ fieldsChars rest ++ ['\x7d']
def itemsChars : List Json → List Char
  | [] => []
  | item :: rest => ',' :: item.chars ++ itemsChars rest
def fieldChars : String × Json → List Char
  | (key, value) => quote key.toList ++ ':' :: value.chars
def fieldsChars : List (String × Json) → List Char
  | [] => []
  | field :: rest => ',' :: fieldChars field ++ fieldsChars rest
end

/-- The compact text of a value. -/
def compact (v : Json) : String := String.ofList v.chars

end PagePreview.Json
