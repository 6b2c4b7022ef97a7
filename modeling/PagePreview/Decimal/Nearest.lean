import PagePreview.Decimal.Notation

/-!
# The floating point number nearest to a decimal

A positive ratio is written as `q * 2 ^ e` with `q` between `2 ^ 52` and
`2 ^ 53`, unless that takes an exponent below the smallest one; `q` is rounded
to a whole number, to the even one of two that are as near. The bits of the
result are those of `e` in front of those of `q`, and because a `q` that is
rounded up to `2 ^ 53` carries into the exponent, no case has to be made of
it.
-/

namespace PagePreview.Decimal

/-- `a / b` rounded to the nearest whole number, to the even one of two. -/
def divideEven (a b : Nat) : Nat :=
  let q := a / b
  match compare (2 * (a % b)) b with
  | .lt => q
  | .gt => q + 1
  | .eq => if q % 2 == 0 then q else q + 1

/-- The numerator and the denominator of `a / b / 2 ^ e`. -/
def scaleTwo (a b : Nat) (e : Int) : Nat × Nat := 
  (a * Nat.pow 2 (-e).toNat, b * Nat.pow 2 e.toNat)

/-- The exponent `e` with `2 ^ 52 ≤ a / b / 2 ^ e < 2 ^ 53`, but at least the smallest one. The
difference of the numbers of binary digits is at most one too large. -/
def binaryExponent (a b : Nat) : Int :=
  let guess : Int := (a.log2 : Int) - (b.log2 : Int) - 52
  let (p, q) := scaleTwo a b guess
  max (-1074) (if p < Nat.pow 2 52 * q then guess - 1 else guess)

def infinity : Float := Float.ofBits 0x7FF0000000000000

/-- The number nearest to `a / b`, for positive `b`. -/
def nearestRatio (a b : Nat) : Float :=
  if a == 0 then 0
  else
    let e := binaryExponent a b
    let (p, q) := scaleTwo a b e
    let whole := divideEven p q
    let bits : Int :=
      if whole < Nat.pow 2 52 then (whole : Int)
      else (e + 1074) * (Nat.pow 2 52 : Nat) + (whole : Int)
    if 0x7FF * (Nat.pow 2 52 : Nat) ≤ bits then infinity
    else Float.ofBits (UInt64.ofNat bits.toNat)

/-- The number nearest to `digits * 10 ^ exponent`. -/
def nearest (digits : Nat) (exponent : Int) : Float :=
  if digits == 0 then 0
  else if exponent > 400 then infinity
  else if exponent + ((digits.log2 : Int) / 3) < -400 then 0
  else nearestRatio (digits * Nat.pow 10 exponent.toNat) (Nat.pow 10 (-exponent).toNat)

/-! ## Whole numbers and floating point numbers

A finite floating point number is a ratio of whole numbers, so its whole
part, its residue as a machine word and its remainder by another number are
computed exactly and rounded at most once, at the end.
-/

def isFinite (x : Float) : Bool := !x.isNaN && !x.isInf

/-- Whether the sign bit is set; zero has one too. -/
def isNegative (x : Float) : Bool := x.toBits >>> 63 == 1

def withSign (negative : Bool) (x : Float) : Float := if negative then -x else x

/-- The floating point number nearest to a whole number. -/
def ofInt (i : Int) : Float := withSign (i < 0) (nearestRatio i.natAbs 1)

/-- The whole part of a finite number; zero for one that is not finite. -/
def truncated (x : Float) : Int :=
  if !isFinite x then 0
  else
    let b := Binary.ofBits x.toBits
    let n : Nat := b.mantissa * Nat.pow 2 b.exponent.toNat / Nat.pow 2 (-b.exponent).toNat
    if isNegative x then -(n : Int) else n

/-- The residue of the whole part modulo `2 ^ 32`. -/
def unsignedWord (x : Float) : Nat := (truncated x % (Nat.pow 2 32 : Nat)).toNat

/-- The residue of a whole number modulo `2 ^ 32` that lies around zero. -/
def signedWord (i : Int) : Int := Int.bmod i (Nat.pow 2 32)

/-- What is left of `x` when `y` is taken away as often as possible, with the sign of `x`. -/
def remainder (x y : Float) : Float :=
  if !isFinite x || y.isNaN || y == 0 then 0.0 / 0.0
  else if y.isInf then x
  else
    let a := Binary.ofBits x.toBits
    let b := Binary.ofBits y.toBits
    let e := min a.exponent b.exponent
    let r :=
      a.mantissa * Nat.pow 2 (a.exponent - e).toNat %
        (b.mantissa * Nat.pow 2 (b.exponent - e).toNat)
    withSign (isNegative x) (nearestRatio (r * Nat.pow 2 e.toNat) (Nat.pow 2 (-e).toNat))

end PagePreview.Decimal
