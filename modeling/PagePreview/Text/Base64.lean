import PagePreview.Decimal.Notation

/-!
# Base64

Three bytes become four symbols of six bits; one or two bytes at the end
are filled up with padding. Reading takes only what writing produces:
padding must be complete and the bits that no byte uses must be zero. A
fault says what is wrong and where, in symbols from the start.
-/

namespace PagePreview.Text.Base64

/-- The symbol of a six-bit value. -/
def symbol (n : Nat) : UInt8 :=
  UInt8.ofNat <|
    if n < 26 then 65 + n
    else if n < 52 then 71 + n
    else if n < 62 then n - 4
    else if n == 62 then 43
    else 47

/-- The six-bit value of a symbol. -/
def value? (b : UInt8) : Option Nat :=
  let n := b.toNat
  if 65 ≤ n && n ≤ 90 then some (n - 65)
  else if 97 ≤ n && n ≤ 122 then some (n - 71)
  else if 48 ≤ n && n ≤ 57 then some (n + 4)
  else if n == 43 then some 62
  else if n == 47 then some 63
  else none

theorem value?_symbol {n : Nat} (h : n < 64) : value? (symbol n) = some n := by
  have all : ∀ k ∈ List.range 64, value? (symbol k) = some k := by decide
  exact all n (List.mem_range.mpr h)

/-- The sign that fills up the last group. -/
def padding : UInt8 := 61

/-- Writes bytes as symbols. -/
def encode : List UInt8 → List UInt8
  | a :: b :: c :: rest =>
    let n := a.toNat * 65536 + b.toNat * 256 + c.toNat
    symbol (n / 262144) :: symbol (n / 4096 % 64) :: symbol (n / 64 % 64) :: symbol (n % 64) ::
      encode rest
  | [a, b] =>
    let n := a.toNat * 1024 + b.toNat * 4
    [symbol (n / 4096), symbol (n / 64 % 64), symbol (n % 64), padding]
  | [a] =>
    let n := a.toNat * 16
    [symbol (n / 64), symbol (n % 64), padding, padding]
  | [] => []

inductive Fault where
  /-- A byte that is no symbol, or padding in a place where none can be. -/
  | symbol (byte : UInt8) (offset : Nat)
  /-- The last group has a single symbol. -/
  | length (symbols : Nat)
  /-- The last group is not filled up. -/
  | padding
  /-- The last symbol has bits that belong to no byte. -/
  | lastSymbol (byte : UInt8) (offset : Nat)
deriving DecidableEq, Repr

def Fault.message : Fault → String
  | .symbol b offset =>
    "Invalid symbol " ++ String.ofList (Decimal.natDigits b.toNat) ++ ", offset " ++
      String.ofList (Decimal.natDigits offset) ++ "."
  | .length n => "Invalid input length: " ++ String.ofList (Decimal.natDigits n)
  | .padding => "Invalid padding"
  | .lastSymbol b offset =>
    "Invalid last symbol " ++ String.ofList (Decimal.natDigits b.toNat) ++ ", offset " ++
      String.ofList (Decimal.natDigits offset) ++ "."

/-- The values of symbols; `offset` bytes stand before them. -/
def values (offset : Nat) : List UInt8 → Except Fault (List Nat)
  | [] => .ok []
  | b :: bs =>
    match value? b with
    | none => .error (.symbol b offset)
    | some n => (values (offset + 1) bs).map (n :: ·)

def byte (n : Nat) : UInt8 := UInt8.ofNat n

/-- Reads the last group: at most four symbols, the padding included. -/
def decodeLast (offset : Nat) (bs : List UInt8) : Except Fault (List UInt8) :=
  let symbols := bs.takeWhile (· != padding)
  let rest := bs.dropWhile (· != padding)
  match values offset symbols with
  | .error e => .error e
  | .ok ns =>
    if !rest.isEmpty && (ns.length < 2 || rest.any (· != padding)) then
      .error (.symbol padding (offset + ns.length))
    else
      let last := .lastSymbol (symbols.getLastD padding) (offset + ns.length - 1)
      match ns with
      | [] => .ok []
      | [_] => .error (.length (offset + 1))
      | [a, b] =>
        if rest.length != 2 then .error .padding
        else if b % 16 != 0 then .error last
        else .ok [byte (a * 4 + b / 16)]
      | [a, b, c] =>
        if rest.length != 1 then .error .padding
        else if c % 4 != 0 then .error last
        else .ok [byte (a * 4 + b / 16), byte (b * 16 + c / 4)]
      | a :: b :: c :: d :: _ =>
        .ok [byte (a * 4 + b / 16), byte (b * 16 + c / 4), byte (c * 64 + d)]

/-- Reads symbols of which `offset` have been read. -/
def decodeFrom (offset : Nat) : List UInt8 → Except Fault (List UInt8)
  | a :: b :: c :: d :: e :: rest => do
    match ← values offset [a, b, c, d] with
    | a :: b :: c :: d :: _ =>
      let more ← decodeFrom (offset + 4) (e :: rest)
      .ok (byte (a * 4 + b / 16) :: byte (b * 16 + c / 4) :: byte (c * 64 + d) :: more)
    | _ => .ok []
  | bs => decodeLast offset bs

/-- Reads symbols as bytes. A byte too many at the end is noticed first. -/
def decode (bs : List UInt8) : Except Fault (List UInt8) :=
  match bs.getLast? with
  | some b =>
    if bs.length % 4 == 1 && b != padding && (value? b).isNone then
      .error (.symbol b (bs.length - 1))
    else decodeFrom 0 bs
  | none => .ok []

end PagePreview.Text.Base64
