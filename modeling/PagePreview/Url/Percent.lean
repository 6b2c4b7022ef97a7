import PagePreview.Text.Hex
import PagePreview.Text.Utf8

/-!
# Percent encoding

A character that may not stand for itself in some part of an address is
written as its UTF-8 bytes, each as a percent sign and two hexadecimal
digits. Which characters these are differs from part to part: the sets below
are the ASCII ones, and every character outside ASCII belongs to all of them.
-/

namespace PagePreview.Url

open Text

/-- Control characters. -/
def inControlSet (c : Char) : Bool := c.toNat < 0x20 || 0x7F ≤ c.toNat

def inFragmentSet (c : Char) : Bool :=
  inControlSet c || c == ' ' || c == '"' || c == '<' || c == '>' || c == '`'

def inQuerySet (c : Char) : Bool :=
  inControlSet c || c == ' ' || c == '"' || c == '#' || c == '<' || c == '>'

/-- In addresses of the common schemes an apostrophe does not stand for itself in a query. -/
def inSpecialQuerySet (c : Char) : Bool := inQuerySet c || c == '\''

def inPathSet (c : Char) : Bool :=
  inFragmentSet c || c == '#' || c == '?' || c == '\x7b' || c == '\x7d'

def inUserSet (c : Char) : Bool :=
  inPathSet c || c == '/' || c == ':' || c == ';' || c == '=' || c == '@' || c == '[' ||
    c == '\\' || c == ']' || c == '^' || c == '|'

/-- One byte as a percent sign and two digits. -/
def percentByte (b : UInt8) : List Char := '%' :: Hex.byteUpper b

/-- Writes the characters of a set as their bytes. -/
def percentEncode (inSet : Char → Bool) (cs : List Char) : List Char :=
  cs.flatMap fun c => if inSet c then (Utf8.encode [c]).flatMap percentByte else [c]

/-- Reads percent signs with two digits behind them as bytes, everything else as itself. -/
def percentDecode : List Char → List UInt8
  | [] => []
  | '%' :: a :: b :: rest =>
    match Hex.value? a, Hex.value? b with
    | some x, some y => UInt8.ofNat (x * 16 + y) :: percentDecode rest
    | _, _ => 37 :: percentDecode (a :: b :: rest)
  | c :: rest => Utf8.encode [c] ++ percentDecode rest

end PagePreview.Url
