import PagePreview.Decimal.Nearest
import PagePreview.Engine.Property
import PagePreview.Script.Numeral
import PagePreview.Text.Blank
import PagePreview.Text.Search

/-!
# Conversions between values

Every value has a truth, and most have a number and a text. Objects are asked
for a value that is no object first, by calling their own functions.
-/

namespace PagePreview.Engine

open Script Text

/-! ## Kinds -/

/-- The word for the kind of a value. -/
def typeOf (v : Value) : Run String := do
  match v with
  | .undefined => return "undefined"
  | .null => return "object"
  | .boolean _ => return "boolean"
  | .number _ => return "number"
  | .text _ => return "string"
  | .bigint _ => return "bigint"
  | .symbol _ => return "symbol"
  | .object _ => return if ← isCallable v then "function" else "object"

def Value.isNullish : Value → Bool
  | .undefined => true
  | .null => true
  | _ => false

/-- Whether a value counts as true. -/
def Value.truth : Value → Bool
  | .undefined => false
  | .null => false
  | .boolean b => b
  | .number x => !(x == 0 || x.isNaN)
  | .text s => !s.isEmpty
  | .bigint i => i != 0
  | .symbol _ => true
  | .object _ => true

/-- The object that a value is, or that stands for it. -/
def toObject (v : Value) : Run Ref := do
  let wrap (proto : Intrinsic) : Run Ref :=
    allocate { body := .wrapper v, proto := some proto.ref }
  match v with
  | .undefined | .null => typeError "cannot convert 'null' or 'undefined' to object"
  | .boolean _ => wrap .booleanProto
  | .number _ => wrap .numberProto
  | .text _ => wrap .stringProto
  | .bigint _ => wrap .bigintProto
  | .symbol _ => wrap .symbolProto
  | .object r => return r

/-- The object whose properties a value has. -/
def baseOf (v : Value) : Run Ref := do
  match v with
  | .text _ => toObject v
  | .boolean _ => return Intrinsic.booleanProto.ref
  | .number _ => return Intrinsic.numberProto.ref
  | .bigint _ => return Intrinsic.bigintProto.ref
  | .symbol _ => return Intrinsic.symbolProto.ref
  | _ => toObject v

/-- The value of a property of any value. -/
def getOf (v : Value) (k : Key) : Run Value := do getFrom (← baseOf v) k v

/-- Calls the method of a value. -/
def invoke (v : Value) (name : String) (args : List Value) : Run Value := do
  let f ← getOf v (.text name)
  if !(← isCallable f) then typeError "not a callable function"
  call f v args

/-! ## Texts of numbers -/

/-- A number as scripts write it. -/
def numberText (x : Float) : String :=
  if x.isNaN then "NaN"
  else if x.isInf then (if x < 0 then "-Infinity" else "Infinity")
  else if x == 0 then "0"
  else String.ofList (Decimal.Notation.script.render x)

/-- What counts as blank in scripts. -/
def isGap (c : Char) : Bool := (isBlank c && c != '\u0085') || c == '\uFEFF'

def trimGaps (cs : List Char) : List Char := dropEndWhile isGap (cs.dropWhile isGap)

/-- The longest decimal number that a text begins with, and the rest. -/
def decimalFront? (cs : List Char) : Option (List Char × List Char) :=
  let (whole, rest) := cs.span Char.isDigit
  let (fraction, rest') := match rest with
    | '.' :: cs => let (f, r) := cs.span Char.isDigit; ('.' :: f, r)
    | _ => ([], rest)
  if whole.isEmpty && fraction.length ≤ 1 then none
  else
    let (exponent, rest'') := match rest' with
      | e :: cs =>
        if e == 'e' || e == 'E' then
          let (sign, ds) := match cs with
            | '+' :: ds => (['+'], ds)
            | '-' :: ds => (['-'], ds)
            | ds => ([], ds)
          let (digits, r) := ds.span Char.isDigit
          if digits.isEmpty then ([], rest') else ('e' :: sign ++ digits, r)
        else ([], rest')
      | [] => ([], rest')
    some (whole ++ fraction ++ exponent, rest'')

def infinity : Float := Decimal.infinity

def nan : Float := 0.0 / 0.0

/-- The number of a text that may have a sign. -/
def signedDecimal? (cs : List Char) : Option (Float × List Char) :=
  let (negative, cs) := match cs with
    | '-' :: cs => (true, cs)
    | '+' :: cs => (false, cs)
    | cs => (false, cs)
  let signed (x : Float) : Float := if negative then -x else x
  match dropFront? "Infinity".toList cs with
  | some rest => some (signed infinity, rest)
  | none => (decimalFront? cs).map fun (digits, rest) => (signed (Numeral.decimalValue digits), rest)

/-- The digits of a number in another base. -/
def digitsIn? (base : Nat) (cs : List Char) : Option Nat :=
  let digit? (c : Char) : Option Nat :=
    let n := if c.isDigit then c.toNat - 48 else if c.isAlpha then c.toLower.toNat - 87 else 99
    if n < base then some n else none
  if cs.isEmpty then none
  else cs.foldlM (fun n c => (digit? c).map (n * base + ·)) 0

/-- The number that a text stands for. -/
def textNumber (s : String) : Float :=
  match trimGaps s.toList with
  | [] => 0
  | '0' :: c :: cs =>
    let based (base : Nat) : Float := ((digitsIn? base cs).map fun n => Decimal.ofInt n).getD nan
    match c.toLower with
    | 'x' => based 16
    | 'o' => based 8
    | 'b' => based 2
    | _ => decimal ('0' :: c :: cs)
  | cs => decimal cs
where
  decimal (cs : List Char) : Float :=
    match signedDecimal? cs with
    | some (x, []) => x
    | _ => nan

/-- The whole number that a text stands for. -/
def textBigint? (s : String) : Option Int :=
  match trimGaps s.toList with
  | [] => some 0
  | '-' :: cs => (digitsIn? 10 cs).map fun n => -(n : Int)
  | '+' :: cs => (digitsIn? 10 cs).map Int.ofNat
  | '0' :: 'x' :: cs => (digitsIn? 16 cs).map Int.ofNat
  | '0' :: 'o' :: cs => (digitsIn? 8 cs).map Int.ofNat
  | '0' :: 'b' :: cs => (digitsIn? 2 cs).map Int.ofNat
  | cs => (digitsIn? 10 cs).map Int.ofNat

/-! ## Conversions -/

/-- What an object is asked for. -/
inductive Hint where
  | any | number | text
deriving DecidableEq

def Hint.word : Hint → String
  | any => "default"
  | number => "number"
  | text => "string"

/-- The value that is no object and stands for a value. -/
def toPrimitive (hint : Hint) (v : Value) : Run Value := do
  match v with
  | .object r =>
    match ← methodOf r WellKnown.toPrimitive.key with
    | some f =>
      match ← call f v [.text hint.word] with
      | .object _ => typeError "cannot convert object to primitive value"
      | p => return p
    | none =>
      let names := if hint == .text then ["toString", "valueOf"] else ["valueOf", "toString"]
      for name in names do
        let f ← getNamed r name
        if ← isCallable f then
          match ← call f v [] with
          | .object _ => pure ()
          | p => return p
      typeError "cannot convert object to primitive value"
  | v => return v

def primitiveText : Value → Run String
  | .undefined => return "undefined"
  | .null => return "null"
  | .boolean b => return if b then "true" else "false"
  | .number x => return numberText x
  | .text s => return s
  | .bigint i => return String.ofList (Decimal.intDigits i)
  | .symbol _ => typeError "can't convert symbol to string"
  | .object _ => return ""

/-- The text of a value. -/
def toText (v : Value) : Run String := do primitiveText (← toPrimitive .text v)

def primitiveNumber : Value → Run Float
  | .undefined => return nan
  | .null => return 0
  | .boolean b => return if b then 1 else 0
  | .number x => return x
  | .text s => return textNumber s
  | .bigint _ => typeError "argument must not be a bigint"
  | .symbol _ => typeError "argument must not be a symbol"
  | .object _ => return nan

/-- The number of a value. -/
def toNumber (v : Value) : Run Float := do primitiveNumber (← toPrimitive .number v)

/-- The number of a value, or the whole number of any size that it is. -/
def toNumeric (v : Value) : Run Value := do
  match ← toPrimitive .number v with
  | .bigint i => return .bigint i
  | p => return .number (← primitiveNumber p)

/-- The whole part of a number. What is not a number is zero, and what is not finite is very
large. -/
def wholePart (x : Float) : Int :=
  if x.isNaN then 0
  else if x.isInf then (if x < 0 then -(Nat.pow 2 80 : Nat) else (Nat.pow 2 80 : Nat))
  else Decimal.truncated x

def toInteger (v : Value) : Run Int := return wholePart (← toNumber v)

/-- A length is a whole number that is not too large. -/
def toLength (v : Value) : Run Nat := return min (← toInteger v).toNat (Nat.pow 2 53 - 1)

/-- The key that a value stands for. -/
def toKey (v : Value) : Run Key := do
  match ← toPrimitive .text v with
  | .symbol id => return .symbol id
  | p => return .text (← primitiveText p)

/-- The value that stands for a key. -/
def Key.value : Key → Value
  | .text s => .text s
  | .symbol id => .symbol id
  | .hidden _ => .undefined

/-- The place that a relative index means in something of some length. -/
def relativeIndex (i : Int) (length : Nat) : Nat :=
  if i < 0 then (i + length).toNat else min i.toNat length

/-! ## Sameness -/

/-- Whether two values are the same for `===`. -/
def Value.isSame : Value → Value → Bool
  | .undefined, .undefined => true
  | .null, .null => true
  | .boolean a, .boolean b => a == b
  | .number x, .number y => x == y
  | .text s, .text t => s == t
  | .bigint i, .bigint j => i == j
  | .symbol i, .symbol j => i == j
  | .object r, .object q => r == q
  | _, _ => false

/-- Whether two values are the same where no number differs from itself. -/
def Value.isSameOrNaN : Value → Value → Bool
  | .number x, .number y => x == y || (x.isNaN && y.isNaN)
  | a, b => a.isSame b

/-- Whether two values cannot be told apart. -/
def Value.isIdentical : Value → Value → Bool
  | .number x, .number y => x.toBits == y.toBits || (x.isNaN && y.isNaN)
  | a, b => a.isSame b

end PagePreview.Engine
