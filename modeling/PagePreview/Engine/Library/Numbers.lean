import PagePreview.Engine.Library.Basic
import PagePreview.Engine.Operate

/-!
# Numbers of the library

Numbers, whole numbers of any size, truth values and symbols as objects, and
the functions of mathematics.
-/

namespace PagePreview.Engine.Library

/-! ## Writing numbers -/

/-- The number that a method works on. -/
def thisNumber (c : NativeCall) : Run Float := do
  match c.self, ← c.self.body with
  | .number x, _ => return x
  | _, .wrapper (.number x) => return x
  | _, _ => typeError "'this' is not a number"

/-- A number between one and what is asked for, as a whole number. -/
def integerArgument (c : NativeCall) (low high : Int) (message : String) : Run Nat := do
  let i ← toInteger (c.arg 0)
  if i < low || high < i then rangeError message
  return i.toNat

/-- The exact ratio that a number is, without its sign. -/
def exactRatio (x : Float) : Nat × Nat :=
  let bits := x.toBits.toNat % Nat.pow 2 63
  let e := bits / Nat.pow 2 52
  let m := bits % Nat.pow 2 52
  let m := if e == 0 then m else m + Nat.pow 2 52
  let power : Int := (max e 1 : Nat) - 1075
  (m * Nat.pow 2 power.toNat, Nat.pow 2 (-power).toNat)

/-- A quotient rounded to a whole number; a half goes up. -/
def roundedRatio (a b : Nat) : Nat := (2 * a + b) / (2 * b)

def withMinus (negative : Bool) (cs : List Char) : String :=
  String.ofList (if negative then '-' :: cs else cs)

/-- Digits with a point in front of the last `places`. -/
def pointed (ds : List Char) (places : Nat) : List Char :=
  if places == 0 then ds
  else
    let ds := List.replicate (places + 1 - ds.length) '0' ++ ds
    ds.take (ds.length - places) ++ '.' :: ds.drop (ds.length - places)

def fixedText (x : Float) (places : Nat) : String :=
  let (a, b) := exactRatio x
  withMinus (x < 0) (pointed (Decimal.natDigits (roundedRatio (a * Nat.pow 10 places) b)) places)

/-- The digits of a number, `count` of them, and the power of ten of the first one. -/
def leadingDigits (x : Float) (count : Nat) : List Char × Int :=
  let (a, b) := exactRatio x
  if a == 0 then (List.replicate count '0', 0)
  else
    let digitsAt (e : Int) : Nat :=
      let shift : Int := count - 1 - e
      roundedRatio (a * Nat.pow 10 shift.toNat) (b * Nat.pow 10 (-shift).toNat)
    let guess : Int := (Decimal.natDigits (a / b)).length - 1
    let guess := if a < b then -((Decimal.natDigits (b / a)).length : Int) else guess
    let rec settle (bound : Nat) (e : Int) : List Char × Int :=
      match bound with
      | 0 => (Decimal.natDigits (digitsAt e), e)
      | bound + 1 =>
        let ds := Decimal.natDigits (digitsAt e)
        if ds.length < count then settle bound (e - 1)
        else if count < ds.length then settle bound (e + 1)
        else (ds, e)
    settle 4 guess

def exponentText (e : Int) : List Char :=
  (if e < 0 then '-' else '+') :: Decimal.natDigits e.natAbs

def withFraction : List Char → List Char
  | [] => []
  | [d] => [d]
  | d :: ds => d :: '.' :: ds

def exponentialText (x : Float) (ds : List Char) (e : Int) : String :=
  withMinus (x < 0) (withFraction ds ++ 'e' :: exponentText e)

def precisionText (x : Float) (count : Nat) : String :=
  let (ds, e) := leadingDigits x count
  if e < -6 || (count : Int) ≤ e then exponentialText x ds e
  else if 0 ≤ e then withMinus (x < 0) (pointed ds (count - 1 - e.toNat))
  else withMinus (x < 0) ('0' :: '.' :: List.replicate (-e - 1).toNat '0' ++ ds)

def radixDigit (n : Nat) : Char := if n < 10 then Char.ofNat (48 + n) else Char.ofNat (87 + n)

/-- A number of units in another base. -/
def radixDigits (base n : Nat) : List Char :=
  let rec go (bound n : Nat) (ds : List Char) : List Char :=
    match bound with
    | 0 => ds
    | bound + 1 => if n == 0 then ds else go bound (n / base) (radixDigit (n % base) :: ds)
  if n == 0 then ['0'] else go (n.log2 + 1) n []

/-- The places of a fraction in another base, as many as tell it from its neighbours. -/
def radixFraction (base : Nat) : (bound : Nat) → (fraction delta : Float) → List Nat
  | 0, _, _ => []
  | bound + 1, fraction, delta =>
    let b := Float.ofNat base
    let scaled := fraction * b
    let delta := delta * b
    let digit := scaled.floor
    let rest := scaled - digit
    if (0.5 < rest || (rest == 0.5 && digit.toUInt64 % 2 == 1)) && 1 < rest + delta then
      [digit.toUInt64.toNat + 1]
    else if rest < delta then [digit.toUInt64.toNat]
    else digit.toUInt64.toNat :: radixFraction base bound rest delta

/-- A digit that has become too large is carried to the one in front of it. -/
def carried (base : Nat) (ds : List Nat) : Nat × List Nat :=
  ds.foldr (fun d (carry, done) =>
    let d := d + carry
    if base ≤ d then (1, if done.isEmpty then [] else (d - base) :: done)
    else (0, d :: done)) (0, [])

def radixText (x : Float) (base : Nat) : String :=
  if x.isNaN || x.isInf || base == 10 then numberText x
  else
    let a := x.abs
    let whole := a.floor
    let fraction := a - whole
    let delta := 0.5 * (Float.ofBits (a.toBits + 1) - a)
    let delta := if delta < Float.ofBits 1 then Float.ofBits 1 else delta
    let (carry, places) := if fraction < delta then (0, [])
      else carried base (radixFraction base 1100 fraction delta)
    let front := radixDigits base ((Decimal.truncated whole).toNat + carry)
    withMinus (x < 0) (if places.isEmpty then front else front ++ '.' :: places.map radixDigit)

def numberMethods : List NativeFunction := [
  ⟨"toString", 1, fun c => do
    let x ← thisNumber c
    let base ← match c.arg 0 with
      | .undefined => pure (10 : Int)
      | v => toInteger v
    if base < 2 || 36 < base then
      rangeError "radix must be an integer at least 2 and no greater than 36"
    return .text (radixText x base.toNat)⟩,
  ⟨"toFixed", 1, fun c => do
    let x ← thisNumber c
    let n ← integerArgument c 0 100 "toFixed() digits argument must be between 0 and 100"
    if x.isNaN || x.isInf || 1e21 ≤ x.abs then return .text (numberText x)
    return .text (fixedText x n)⟩,
  ⟨"toPrecision", 1, fun c => do
    let x ← thisNumber c
    if (c.arg 0) matches .undefined then return .text (numberText x)
    let i ← toInteger (c.arg 0)
    if x.isNaN || x.isInf then return .text (numberText x)
    if i < 1 || 100 < i then
      rangeError "precision must be an integer at least 1 and no greater than 100"
    return .text (precisionText x i.toNat)⟩,
  ⟨"toExponential", 1, fun c => do
    let x ← thisNumber c
    let i ← toInteger (c.arg 0)
    if x.isNaN || x.isInf then return .text (numberText x)
    if i < 0 || 100 < i then
      rangeError "toExponential() argument must be between 0 and 100"
    match c.arg 0 with
    | .undefined =>
      let count := (Decimal.natDigits (Decimal.Binary.ofBits x.abs.toBits).shortest.digits).length
      let (ds, e) := leadingDigits x (if x == 0 then 1 else count)
      return .text (exponentialText x ds e)
    | _ =>
      let (ds, e) := leadingDigits x (i.toNat + 1)
      return .text (exponentialText x ds e)⟩,
  ⟨"toLocaleString", 0, fun c => do return .text (numberText (← thisNumber c))⟩,
  ⟨"valueOf", 0, fun c => return .number (← thisNumber c)⟩]

/-! ## Reading numbers -/

def parseFloatText (s : String) : Float :=
  match signedDecimal? (s.toList.dropWhile isGap) with
  | some (x, _) => x
  | none => nan

def digitOf (base : Nat) (c : Char) : Option Nat :=
  let n := if c.isDigit then c.toNat - 48 else if c.isAlpha then c.toLower.toNat - 87 else 99
  if n < base then some n else none

def parseIntText (s : String) (radix : Int) : Float :=
  let cs := s.toList.dropWhile isGap
  let (negative, cs) := match cs with
    | '-' :: cs => (true, cs)
    | '+' :: cs => (false, cs)
    | cs => (false, cs)
  if radix != 0 && (radix < 2 || 36 < radix) then nan
  else
    let (base, cs) := match cs with
      | '0' :: x :: rest =>
        if (x == 'x' || x == 'X') && (radix == 0 || radix == 16) then (16, rest)
        else (if radix == 0 then 10 else radix.toNat, cs)
      | cs => (if radix == 0 then 10 else radix.toNat, cs)
    let ds := cs.takeWhile fun c => (digitOf base c).isSome
    if ds.isEmpty then nan
    else
      let n : Nat := ds.foldl (fun n d => base * n + (digitOf base d).getD 0) 0
      Decimal.withSign negative (Decimal.ofInt n)

def isWhole (v : Value) : Bool :=
  match v with
  | .number x => Decimal.isFinite x && x.floor == x
  | _ => false

def isSafe (v : Value) : Bool :=
  match v with
  | .number x => isWhole v && x.abs ≤ 9007199254740991
  | _ => false

def parseFunctions : List NativeFunction := [
  ⟨"parseInt", 2, fun c => do
    let s ← toText (c.arg 0)
    let radix ← toNumber (c.arg 1)
    return .number (parseIntText s (Decimal.signedWord (wholePart radix % (Nat.pow 2 32 : Nat))))⟩,
  ⟨"parseFloat", 1, fun c => do return .number (parseFloatText (← toText (c.arg 0)))⟩]

def numberStatics : List NativeFunction := [
  ⟨"isInteger", 1, fun c => return .boolean (isWhole (c.arg 0))⟩,
  ⟨"isSafeInteger", 1, fun c => return .boolean (isSafe (c.arg 0))⟩,
  ⟨"isFinite", 1, fun c => return .boolean (match c.arg 0 with
    | .number x => Decimal.isFinite x
    | _ => false)⟩,
  ⟨"isNaN", 1, fun c => return .boolean (match c.arg 0 with
    | .number x => x.isNaN
    | _ => false)⟩]

def numberConstants : List (String × Float) := [
  ("MAX_SAFE_INTEGER", 9007199254740991), ("MIN_SAFE_INTEGER", -9007199254740991),
  ("MAX_VALUE", Float.ofBits 0x7FEFFFFFFFFFFFFF), ("MIN_VALUE", Float.ofBits 1),
  ("EPSILON", Float.ofBits 0x3CB0000000000000),
  ("POSITIVE_INFINITY", infinity), ("NEGATIVE_INFINITY", -infinity), ("NaN", nan)]

/-- A value of a wrapper that is made by `new`, or the value alone. -/
def wrapped (c : NativeCall) (v : Value) : Run Value := do
  if c.isNew then return .object (← toObject v) else return v

def constructNumber (c : NativeCall) : Run Value := do
  match c.arguments with
  | [] => wrapped c (.number 0)
  | v :: _ =>
    match ← toNumeric v with
    | .bigint i => wrapped c (.number (Decimal.ofInt i))
    | v => wrapped c v

/-! ## Truth values -/

def thisBoolean (c : NativeCall) : Run Bool := do
  match c.self, ← c.self.body with
  | .boolean b, _ => return b
  | _, .wrapper (.boolean b) => return b
  | _, _ => typeError "'this' is not a boolean"

def booleanMethods : List NativeFunction := [
  ⟨"toString", 0, fun c => return .text (if ← thisBoolean c then "true" else "false")⟩,
  ⟨"valueOf", 0, fun c => return .boolean (← thisBoolean c)⟩]

def constructBoolean (c : NativeCall) : Run Value := wrapped c (.boolean (c.arg 0).truth)

/-! ## Whole numbers of any size -/

def thisBigint (c : NativeCall) : Run Int := do
  match c.self, ← c.self.body with
  | .bigint i, _ => return i
  | _, .wrapper (.bigint i) => return i
  | _, _ => typeError "'this' is not a BigInt"

def toBigint (v : Value) : Run Int := do
  match ← toPrimitive .number v with
  | .bigint i => return i
  | .boolean b => return if b then 1 else 0
  | .text s =>
    match textBigint? s with
    | some i => return i
    | none => syntaxError ("cannot convert string '" ++ s ++ "' to bigint primitive")
  | .number x =>
    if isWhole (.number x) then return Decimal.truncated x
    else rangeError ("cannot convert " ++ numberText x ++ " to a BigInt because it is not an integer")
  | .undefined => typeError "cannot convert undefined to a BigInt"
  | .null => typeError "cannot convert null to a BigInt"
  | _ => typeError "cannot convert Symbol to a BigInt"

def bigintMethods : List NativeFunction := [
  ⟨"toString", 0, fun c => do
    let i ← thisBigint c
    let base ← match c.arg 0 with
      | .undefined => pure (10 : Int)
      | v => toInteger v
    if base < 2 || 36 < base then
      rangeError "radix must be an integer at least 2 and no greater than 36"
    return .text (withMinus (i < 0) (radixDigits base.toNat i.natAbs))⟩,
  ⟨"toLocaleString", 0, fun c => do
    return .text (String.ofList (Decimal.intDigits (← thisBigint c)))⟩,
  ⟨"valueOf", 0, fun c => return .bigint (← thisBigint c)⟩]

def bigintStatics : List NativeFunction := [
  ⟨"asIntN", 2, fun c => do
    let n ← toInteger (c.arg 0)
    return .bigint (Int.bmod (← toBigint (c.arg 1)) (Nat.pow 2 n.toNat))⟩,
  ⟨"asUintN", 2, fun c => do
    let n ← toInteger (c.arg 0)
    return .bigint ((← toBigint (c.arg 1)) % (Nat.pow 2 n.toNat : Nat))⟩]

def constructBigint (c : NativeCall) : Run Value := do
  if c.isNew then typeError "BigInt is not a constructor"
  return .bigint (← toBigint (c.arg 0))

/-! ## Symbols -/

def thisSymbol (c : NativeCall) : Run Nat := do
  match c.self, ← c.self.body with
  | .symbol id, _ => return id
  | _, .wrapper (.symbol id) => return id
  | _, _ => typeError "'this' is not a Symbol"

def symbolText (id : Nat) : Run String :=
  return "Symbol(" ++ ((← get).symbols.getD id none).getD "" ++ ")"

def symbolMethods : List NativeFunction := [
  ⟨"toString", 0, fun c => do return .text (← symbolText (← thisSymbol c))⟩,
  ⟨"valueOf", 0, fun c => return .symbol (← thisSymbol c)⟩]

def symbolDescription (c : NativeCall) : Run Value := do
  return ((← get).symbols.getD (← thisSymbol c) none).elim .undefined Value.text

def symbolStatics : List NativeFunction := [
  ⟨"for", 1, fun c => do
    let s ← toText (c.arg 0)
    match (← get).registered.lookup s with
    | some id => return .symbol id
    | none =>
      let id ← newSymbol (some s)
      modify fun m => { m with registered := (s, id) :: m.registered }
      return .symbol id⟩,
  ⟨"keyFor", 1, fun c => do
    match c.arg 0 with
    | .symbol id =>
      return (((← get).registered.find? (·.2 == id)).map fun e => Value.text e.1).getD .undefined
    | _ => typeError "Symbol.keyFor: sym is not a symbol"⟩]

def constructSymbol (c : NativeCall) : Run Value := do
  if c.isNew then typeError "Symbol is not a constructor"
  let description ← match c.arg 0 with
    | .undefined => pure none
    | v => do pure (some (← toText v))
  return .symbol (← newSymbol description)

/-! ## Mathematics -/

/-- Rounds; a half goes up. -/
def roundHalfUp (x : Float) : Float :=
  if !Decimal.isFinite x || x.abs ≥ 4503599627370496 then x
  else
    let r := (x + 0.5).floor
    let r := if 0 < x && x < 0.5 then 0 else r
    if r == 0 && (x < 0 || Decimal.isNegative x) then -0.0 else r

/-- A function of one number. -/
def unaryMath (name : String) (f : Float → Float) : NativeFunction :=
  ⟨name, 1, fun c => do return .number (f (← toNumber (c.arg 0)))⟩

/-- The more extreme one of two numbers; of two zeros, the one with the wanted sign. -/
def extreme (larger : Bool) (x y : Float) : Float :=
  if x.isNaN || y.isNaN then nan
  else if x == y then (if Decimal.isNegative x != larger then x else y)
  else if (x < y) == larger then y else x

def extremeOf (larger : Bool) (c : NativeCall) : Run Value := do
  let xs ← c.arguments.mapM toNumber
  return .number (xs.foldl (extreme larger) (if larger then -infinity else infinity))

/-- How many zeros a word of 32 bits begins with. -/
def leadingZeros (n : Nat) : Nat := if n == 0 then 32 else 31 - n.log2

def signOf (x : Float) : Float := if x.isNaN || x == 0 then x else if x < 0 then -1 else 1

def truncate (x : Float) : Float := if Decimal.isNegative x then x.ceil else x.floor

/-- A cube root; that of a cube is exact. -/
def cubeRoot (x : Float) : Float :=
  let r := Float.cbrt x
  let n := r.round
  if n * n * n == x then n else r

/-- The nearest number with 24 binary places. -/
def toSingle (x : Float) : Float := x.toFloat32.toFloat

def mathFunctions : List NativeFunction := [
  unaryMath "abs" Float.abs, unaryMath "ceil" Float.ceil, unaryMath "floor" Float.floor,
  unaryMath "round" roundHalfUp, unaryMath "trunc" truncate, unaryMath "sign" signOf,
  unaryMath "sqrt" Float.sqrt, unaryMath "cbrt" cubeRoot, unaryMath "exp" Float.exp,
  unaryMath "expm1" (fun x => if x.abs < 1e-5 then x + x * x / 2 else Float.exp x - 1),
  unaryMath "log" Float.log, unaryMath "log2" Float.log2, unaryMath "log10" Float.log10,
  unaryMath "log1p" (fun x => if x.abs < 1e-5 then x - x * x / 2 else Float.log (1 + x)),
  unaryMath "sin" Float.sin, unaryMath "cos" Float.cos, unaryMath "tan" Float.tan,
  unaryMath "asin" Float.asin, unaryMath "acos" Float.acos, unaryMath "atan" Float.atan,
  unaryMath "sinh" Float.sinh, unaryMath "cosh" Float.cosh, unaryMath "tanh" Float.tanh,
  unaryMath "asinh" Float.asinh, unaryMath "acosh" Float.acosh, unaryMath "atanh" Float.atanh,
  unaryMath "fround" toSingle,
  ⟨"max", 2, extremeOf true⟩,
  ⟨"min", 2, extremeOf false⟩,
  ⟨"pow", 2, fun c => do
    let x ← toNumber (c.arg 0)
    return .number (power x (← toNumber (c.arg 1)))⟩,
  ⟨"atan2", 2, fun c => do
    let y ← toNumber (c.arg 0)
    return .number (Float.atan2 y (← toNumber (c.arg 1)))⟩,
  ⟨"hypot", 2, fun c => do
    let xs ← c.arguments.mapM toNumber
    if xs.any Float.isInf then return .number infinity
    return .number (Float.sqrt (xs.foldl (fun n x => n + x * x) 0))⟩,
  ⟨"imul", 2, fun c => do
    let x := wholePart (← toNumber (c.arg 0))
    let y := wholePart (← toNumber (c.arg 1))
    return .number (Decimal.ofInt (Int.bmod (x * y) (Nat.pow 2 32)))⟩,
  ⟨"clz32", 1, fun c => do
    return numberValue (leadingZeros (Decimal.unsignedWord (← toNumber (c.arg 0))))⟩,
  ⟨"random", 0, fun _ => do
    let seed := ((← get).seed * 6364136223846793005 + 1442695040888963407) % Nat.pow 2 64
    modify fun m => { m with seed }
    return .number (Float.ofNat (seed / Nat.pow 2 11) / 9007199254740992)⟩]

def mathConstants : List (String × Float) := [
  ("E", 2.718281828459045), ("LN10", 2.302585092994046), ("LN2", 0.6931471805599453),
  ("LOG10E", 0.4342944819032518), ("LOG2E", 1.4426950408889634), ("PI", 3.141592653589793),
  ("SQRT1_2", 0.7071067811865476), ("SQRT2", 1.4142135623730951)]

end PagePreview.Engine.Library
