import PagePreview.Decimal.Notation
import PagePreview.Text.Visible

/-!
# What can be wrong with JSON text

A `Fault` has a cause and a place. Causes are of three sorts: the text ends
too early, the text is no JSON, or it is JSON of a kind that the reader at
that place has no use for.
-/

namespace PagePreview.Json

/-- A place in a text: the line from one on, and how many bytes of it lie before. -/
structure Place where
  line : Nat := 1
  column : Nat := 0
deriving DecidableEq, Repr

/-- The kind of a value that was found where another was wanted. -/
inductive Found where
  | null
  | bool (value : Bool)
  | int (value : Int)
  | float (value : Float)
  | string (value : String)
  | sequence
  | map

inductive Cause where
  | endInList
  | endInObject
  | endInString
  | endInValue
  | expectedColon
  | expectedCommaOrBracket
  | expectedCommaOrBrace
  | expectedKeyword
  | expectedValue
  | invalidEscape
  | invalidNumber
  | numberOutOfRange
  | controlCharacter
  | keyNotString
  | loneSurrogate
  | endOfEscape
  | trailingComma
  | trailingCharacters
  | tooDeep
  | wrongType (found : Found) (wanted : String)
  | wrongValue (found : Found) (wanted : String)
  | wrongLength (length : Nat) (wanted : String)
  | unknownField (name : String) (known : List String)
  | duplicateField (name : String)
  | missingField (name : String)

structure Fault where
  cause : Cause
  place : Place

/-- The sorts of causes. -/
inductive FaultClass where
  | ended
  | malformed
  | unfit
deriving DecidableEq, Repr

def Cause.faultClass : Cause → FaultClass
  | .endInList | .endInObject | .endInString | .endInValue => .ended
  | .wrongType .. | .wrongValue .. | .wrongLength .. | .unknownField .. | .duplicateField _
  | .missingField _ => .unfit
  | _ => .malformed

def Found.text : Found → String
  | .null => "null"
  | .bool b => "boolean `" ++ (if b then "true" else "false") ++ "`"
  | .int i => "integer `" ++ String.ofList (Decimal.intDigits i) ++ "`"
  | .float x => "floating point `" ++ String.ofList (Decimal.Notation.wire.render x) ++ "`"
  | .string s => "string " ++ Text.Visible.quote s
  | .sequence => "sequence"
  | .map => "map"

/-- The names of alternatives in an error text. -/
def alternatives : List String → String
  | [] => "there are no fields"
  | [a] => "expected `" ++ a ++ "`"
  | [a, b] => "expected `" ++ a ++ "` or `" ++ b ++ "`"
  | a :: rest => "expected one of `" ++ a ++ "`" ++ String.join (rest.map (", `" ++ · ++ "`"))

def Cause.message : Cause → String
  | .endInList => "EOF while parsing a list"
  | .endInObject => "EOF while parsing an object"
  | .endInString => "EOF while parsing a string"
  | .endInValue => "EOF while parsing a value"
  | .expectedColon => "expected `:`"
  | .expectedCommaOrBracket => "expected `,` or `]`"
  | .expectedCommaOrBrace => "expected `,` or `\x7d`"
  | .expectedKeyword => "expected ident"
  | .expectedValue => "expected value"
  | .invalidEscape => "invalid escape"
  | .invalidNumber => "invalid number"
  | .numberOutOfRange => "number out of range"
  | .controlCharacter => "control character (\\u0000-\\u001F) found while parsing a string"
  | .keyNotString => "key must be a string"
  | .loneSurrogate => "lone leading surrogate in hex escape"
  | .endOfEscape => "unexpected end of hex escape"
  | .trailingComma => "trailing comma"
  | .trailingCharacters => "trailing characters"
  | .tooDeep => "recursion limit exceeded"
  | .wrongType found wanted => "invalid type: " ++ found.text ++ ", expected " ++ wanted
  | .wrongValue found wanted => "invalid value: " ++ found.text ++ ", expected " ++ wanted
  | .wrongLength n wanted =>
    "invalid length " ++ String.ofList (Decimal.natDigits n) ++ ", expected " ++ wanted
  | .unknownField name known => "unknown field `" ++ name ++ "`, " ++ alternatives known
  | .duplicateField name => "duplicate field `" ++ name ++ "`"
  | .missingField name => "missing field `" ++ name ++ "`"

/-- The cause, and where it was noticed. -/
def Fault.message (f : Fault) : String :=
  f.cause.message ++ " at line " ++ String.ofList (Decimal.natDigits f.place.line) ++
    " column " ++ String.ofList (Decimal.natDigits f.place.column)

end PagePreview.Json
