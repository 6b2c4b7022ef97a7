import PagePreview.Decimal.Notation
import PagePreview.Url.Idna
import PagePreview.Url.Percent

/-!
# Hosts

A host is a name, an address of 32 bits or an address of 128 bits. The
common schemes give names a meaning: they are brought into one spelling, and
a name whose last label is a number is an address of 32 bits, which may be
written in several ways. To other schemes a name is just text.
-/

namespace PagePreview.Url

open Text

/-- Why a text is no address of a resource. -/
inductive Fault where
  | noBase
  | baseWithoutPath
  | emptyHost
  | invalidPort
  | invalidName
  | invalidIpv4
  | invalidIpv6
  | invalidCharacter
deriving DecidableEq, Repr

def Fault.message : Fault → String
  | .noBase => "relative URL without a base"
  | .baseWithoutPath => "relative URL with a cannot-be-a-base base"
  | .emptyHost => "empty host"
  | .invalidPort => "invalid port number"
  | .invalidName => "invalid international domain name"
  | .invalidIpv4 => "invalid IPv4 address"
  | .invalidIpv6 => "invalid IPv6 address"
  | .invalidCharacter => "invalid domain character"

inductive Host where
  | name (text : List Char)
  | ipv4 (address : Nat)
  | ipv6 (pieces : List Nat)
deriving DecidableEq, Repr

/-! ## Addresses of 32 bits -/

/-- A part of an address: decimal, octal after a zero, or hexadecimal after `0x`. None if it is
no number at all. -/
def ipv4Part? (cs : List Char) : Option Nat :=
  let number (base : Nat) (digits : List Char) : Option Nat :=
    digits.foldl (fun acc c => do
      let d ← Hex.value? c
      if d < base then some ((← acc) * base + d) else none) (some 0)
  match cs with
  | [] => none
  | '0' :: 'x' :: digits => number 16 digits
  | '0' :: 'X' :: digits => number 16 digits
  | '0' :: c :: digits => number 8 (c :: digits)
  | digits => number 10 digits

/-- The labels without an empty one at the end. -/
def dropLastEmpty (labels : List (List Char)) : List (List Char) :=
  if labels.getLast? == some [] && 1 < labels.length then labels.dropLast else labels

/-- Whether the last label of a name is a number, so that the name has to be an address. -/
def endsInNumber (name : List Char) : Bool :=
  match (dropLastEmpty (Idna.labels name)).getLast? with
  | some last => (!last.isEmpty && last.all Char.isDigit) || (ipv4Part? last).isSome
  | none => false

/-- The address that a name stands for. The last part fills all bytes that are left. -/
def ipv4? (name : List Char) : Option Nat := do
  let parts := dropLastEmpty (Idna.labels name)
  if 4 < parts.length then none
  else
    let numbers ← parts.mapM ipv4Part?
    let last ← numbers.getLast?
    let front := numbers.dropLast
    if front.any (255 < ·) || Nat.pow 256 (4 - front.length) ≤ last then none
    else some (front.zipIdx.foldl (fun sum (n, i) => sum + n * Nat.pow 256 (3 - i)) last)

def ipv4Chars (address : Nat) : List Char :=
  let byte (i : Nat) : List Char := Decimal.natDigits (address / Nat.pow 256 i % 256)
  byte 3 ++ '.' :: byte 2 ++ '.' :: byte 1 ++ '.' :: byte 0

/-! ## Addresses of 128 bits -/

/-- One to four hexadecimal digits at the front. -/
def hexPiece (cs : List Char) : Nat × List Char :=
  let digits := (cs.take 4).takeWhile fun c => (Hex.value? c).isSome
  ((Hex.read? digits).getD 0, cs.drop digits.length)

/-- The four bytes of an address of 32 bits at the end of one of 128 bits. -/
def dottedPieces? (cs : List Char) : Option (List Nat) := do
  let parts := Idna.labels cs
  let bytes ← parts.mapM fun p =>
    if p.isEmpty || 3 < p.length || !p.all Char.isDigit || (1 < p.length && p.head? == some '0')
    then none
    else
      let n := p.foldl (fun (acc : Nat) c => acc * 10 + (c.toNat - 48)) 0
      if n ≤ 255 then some n else none
  match bytes with
  | [a, b, c, d] => some [a * 256 + b, c * 256 + d]
  | _ => none

/-- The pieces of an address. `before` are the ones in front of the gap, `after` the ones behind
it, both last first; `steps` bounds how many may follow. -/
def ipv6From : (steps : Nat) → (before : List Nat) → (after : Option (List Nat)) → List Char →
    Option (List Nat × Option (List Nat))
  | 0, _, _, _ => none
  | _ + 1, before, after, [] => some (before, after)
  | steps + 1, before, after, cs =>
    let (piece, rest) := hexPiece cs
    let push (pieces : List Nat) : List Nat × Option (List Nat) :=
      match after with
      | none => (pieces ++ before, none)
      | some late => (before, some (pieces ++ late))
    if rest.length == cs.length then none
    else match rest with
      | [] => some (push [piece])
      | '.' :: _ => (dottedPieces? cs).map fun pieces => push pieces.reverse
      | ':' :: ':' :: more =>
        match after with
        | some _ => none
        | none => ipv6From steps (piece :: before) (some []) more
      | [':'] => none
      | ':' :: more =>
        let (before, after) := push [piece]
        ipv6From steps before after more
      | _ => none

/-- The eight pieces of an address; a gap stands for as many zeros as are missing. -/
def ipv6? (cs : List Char) : Option (List Nat) := do
  let start := match cs with
    | ':' :: ':' :: rest => ipv6From 9 [] (some []) rest
    | ':' :: _ => none
    | [] => none
    | _ => ipv6From 9 [] none cs
  match ← start with
  | (before, none) => if before.length == 8 then some before.reverse else none
  | (before, some after) =>
    let count := before.length + after.length
    if 8 ≤ count then none
    else some (before.reverse ++ List.replicate (8 - count) 0 ++ after.reverse)

/-- The length of the row of zeros at the front. -/
def zeroRun (pieces : List Nat) : Nat := (pieces.takeWhile (· == 0)).length

/-- Where the first of the longest rows of at least two zeros begins. -/
def longestGap (pieces : List Nat) : Option (Nat × Nat) :=
  let runs := (List.range pieces.length).map fun i => (i, zeroRun (pieces.drop i))
  runs.foldl (fun best (i, n) =>
    match best with
    | none => if 2 ≤ n then some (i, n) else none
    | some (j, m) => if m < n then some (i, n) else some (j, m)) none

def piecesChars (pieces : List Nat) : List Char :=
  match pieces with
  | [] => []
  | [p] => Nat.toDigits 16 p
  | p :: rest => Nat.toDigits 16 p ++ ':' :: piecesChars rest

def ipv6Chars (pieces : List Nat) : List Char :=
  match longestGap pieces with
  | none => piecesChars pieces
  | some (i, n) => piecesChars (pieces.take i) ++ ':' :: ':' :: piecesChars (pieces.drop (i + n))

/-! ## Hosts of either kind -/

def Host.chars : Host → List Char
  | .name cs => cs
  | .ipv4 a => ipv4Chars a
  | .ipv6 ps => '[' :: ipv6Chars ps ++ [']']

/-- An address of 128 bits in brackets. -/
def bracketed (cs : List Char) : Except Fault Host :=
  match cs.getLast?, ipv6? cs.dropLast with
  | some ']', some pieces => .ok (.ipv6 pieces)
  | _, _ => .error .invalidIpv6

/-- A host of a common scheme. -/
def specialHost (cs : List Char) : Except Fault Host :=
  match cs with
  | '[' :: rest => bracketed rest
  | cs =>
    match Utf8.decode? (percentDecode cs) with
    | .error _ => .error .invalidName
    | .ok decoded =>
      match Idna.toAscii decoded with
      | none => .error .invalidName
      | some [] => .error .emptyHost
      | some name =>
        if endsInNumber name then
          match ipv4? name with
          | some a => .ok (.ipv4 a)
          | none => .error .invalidIpv4
        else .ok (.name name)

/-- Characters that stand for something else in an address. -/
def isForbiddenInHost (c : Char) : Bool := "\x00\t\n\r #/:<>?@[\\]^|".toList.contains c

/-- A host of any other scheme. -/
def plainHost (cs : List Char) : Except Fault Host :=
  match cs with
  | '[' :: rest => bracketed rest
  | cs =>
    if cs.any isForbiddenInHost then .error .invalidCharacter
    else .ok (.name (percentEncode inControlSet cs))

end PagePreview.Url
