/-!
# How floating point numbers are written

`Notation` collects the decisions of a format: which magnitudes are written
out positionally, what is put behind whole numbers, and how the exponent
looks otherwise. `render` applies one to the digits of a number.
-/

namespace PagePreview.Decimal

/-! ## The fewest digits that identify a floating point number

A finite number is `mantissa * 2 ^ exponent` with natural `mantissa`. The
decimals that are read back as this number form an interval: its ends lie
halfway to the two neighbours and belong to it exactly if the mantissa is
even. `shortest` searches the grids `10 ^ k` from coarse to fine and takes
from the first grid that meets the interval the point nearest to the number.

All of this is arithmetic on natural numbers. `Binary.contains` is the
interval; a decimal is compared with its ends by cross-multiplication.
-/

/-- The number `mantissa * 2 ^ exponent`. -/
structure Binary where
  mantissa : Nat
  exponent : Int
  /-- Whether the neighbour below is only half as far away as the one above. -/
  nearBelow : Bool

/-- The absolute value of a finite number, taken from its bits. -/
def Binary.ofBits (bits : UInt64) : Binary :=
  let e := ((bits >>> 52) &&& 0x7FF).toNat
  let f := (bits &&& 0xFFFFFFFFFFFFF).toNat
  if e == 0 then ⟨f, -1074, false⟩ else ⟨Nat.pow 2 52 + f, (e : Int) - 1075, f == 0 && 1 < e⟩

/-- The decimal `digits * 10 ^ exponent`. -/
structure Digits where
  digits : Nat
  exponent : Int
deriving DecidableEq, Repr

/-- Compares `a * 10 ^ i` with `b * 2 ^ j`. -/
def compareScaled (a : Nat) (i : Int) (b : Nat) (j : Int) : Ordering :=
  compare (a * Nat.pow 10 i.toNat * Nat.pow 2 (-j).toNat)
    (b * Nat.pow 2 j.toNat * Nat.pow 10 (-i).toNat)

/-- Whether a decimal is read back as the number. -/
def Binary.contains (x : Binary) (d : Digits) : Bool :=
  let low := if x.nearBelow then 4 * x.mantissa - 1 else 4 * x.mantissa - 2
  let closed := x.mantissa % 2 == 0
  let atLow := compareScaled d.digits d.exponent low (x.exponent - 2)
  let atHigh := compareScaled d.digits d.exponent (4 * x.mantissa + 2) (x.exponent - 2)
  (atLow == .gt || (closed && atLow == .eq)) && (atHigh == .lt || (closed && atHigh == .eq))

/-- The point of the grid `10 ^ k` at or below the number, as a multiple of the grid's step. -/
def Binary.floorOn (x : Binary) (k : Int) : Nat :=
  (x.mantissa * Nat.pow 2 x.exponent.toNat * Nat.pow 10 (-k).toNat) /
    (Nat.pow 2 (-x.exponent).toNat * Nat.pow 10 k.toNat)

/-- Of the points `n` and `n + 1` of a grid the one nearer to the number; the even one if both
are as near. -/
def Binary.nearer (x : Binary) (n : Nat) (k : Int) : Nat :=
  match compareScaled (2 * n + 1) k (2 * x.mantissa) x.exponent with
  | .lt => n + 1
  | .gt => n
  | .eq => if n % 2 == 0 then n else n + 1

/-- The best point of the grid `10 ^ k` that is read back as the number. -/
def Binary.pointOn? (x : Binary) (k : Int) : Option Digits :=
  let n := x.floorOn k
  match x.contains ⟨n, k⟩, x.contains ⟨n + 1, k⟩ with
  | true, true => some ⟨x.nearer n k, k⟩
  | true, false => some ⟨n, k⟩
  | false, true => some ⟨n + 1, k⟩
  | false, false => none

/-- The least `k` with `x < 10 ^ k`, searched upwards from a guess that is not above it. -/
def Binary.scaleFrom (x : Binary) : (steps : Nat) → (guess : Int) → Int
  | 0, k => k
  | steps + 1, k =>
    if compareScaled 1 k x.mantissa x.exponent == .gt then k else x.scaleFrom steps (k + 1)

/-- The least `k` with `x < 10 ^ k`. The number of binary digits gives a guess that is at most
two too small. -/
def Binary.scale (x : Binary) : Int :=
  let bits : Int := (x.mantissa.log2 : Int) + x.exponent
  x.scaleFrom 4 ((bits * 30103).fdiv 100000 - 1)

/-- Moves trailing zeros from the digits to the exponent. -/
def stripZeros : (steps : Nat) → Digits → Digits
  | 0, d => d
  | steps + 1, d =>
    if d.digits != 0 && d.digits % 10 == 0 then stripZeros steps ⟨d.digits / 10, d.exponent + 1⟩
    else d

/-- Searches grids of `count`, `count + 1`, … digits. -/
def Binary.searchFrom (x : Binary) (scale : Int) : (steps : Nat) → (count : Int) → Digits
  | 0, count => ⟨x.floorOn (scale - count), scale - count⟩
  | steps + 1, count =>
    match x.pointOn? (scale - count) with
    | some d => d
    | none => x.searchFrom scale steps (count + 1)

/-- The fewest digits that are read back as the number; seventeen always are enough. -/
def Binary.shortest (x : Binary) : Digits :=
  if x.mantissa == 0 then ⟨0, 0⟩ else stripZeros 18 (x.searchFrom x.scale 17 1)

/-! ## Formats -/

structure Notation where
  /-- Positional below `10 ^ largest`. -/
  largest : Int
  /-- Positional from `10 ^ smallest` on. -/
  smallest : Int
  /-- What follows a whole number in positional notation. -/
  wholeMark : List Char
  /-- Whether zero keeps its sign. -/
  signedZero : Bool

/-- Values on the wire: a number that is not whole by type keeps a decimal point. -/
def Notation.wire : Notation := ⟨16, -5, ['.', '0'], true⟩

/-- Numbers in scripts. -/
def Notation.script : Notation := ⟨21, -6, [], false⟩

/-- Numbers as they are told to readers: always positional. -/
def Notation.plain : Notation := ⟨400, -400, [], true⟩

/-- The decimal digits of a natural number. -/
def natDigits (n : Nat) : List Char := Nat.toDigits 10 n

def intDigits (i : Int) : List Char :=
  if i < 0 then '-' :: natDigits i.natAbs else natDigits i.natAbs

/-- The decimal digits of a number with a point before the last `places` of them. -/
def withPoint (digits : List Char) (places : Nat) : List Char :=
  let padded := List.replicate (places + 1 - digits.length) '0' ++ digits
  padded.take (padded.length - places) ++ '.' :: padded.drop (padded.length - places)

/-- One digit before the point, and a signed exponent. -/
def scientific (digits : List Char) (exponent : Int) : List Char :=
  (match digits with
    | d :: e :: rest => d :: '.' :: e :: rest
    | short => short) ++
  'e' :: (if exponent < 0 then [] else ['+']) ++ intDigits exponent

/-- Writes a positive number that has these digits. -/
def Notation.layout (n : Notation) (d : Digits) : List Char :=
  let digits := natDigits d.digits
  let point : Int := digits.length + d.exponent
  if n.smallest < point && point ≤ n.largest then
    if 0 ≤ d.exponent then digits ++ List.replicate d.exponent.toNat '0' ++ n.wholeMark
    else withPoint digits d.exponent.natAbs
  else scientific digits (point - 1)

/-- Writes a finite number. -/
def Notation.render (n : Notation) (x : Float) : List Char :=
  let bits := x.toBits
  let negative := bits >>> 63 == 1
  let b := Binary.ofBits bits
  if b.mantissa == 0 then
    (if negative && n.signedZero then ['-'] else []) ++ '0' :: n.wholeMark
  else (if negative then ['-'] else []) ++ n.layout b.shortest

end PagePreview.Decimal
