import PagePreview.Engine.Convert
import PagePreview.Script.Lowering.Constant

/-!
# Operators

Arithmetic is about two numbers or about two whole numbers of any size, and
never about one of each. Only `+` also joins texts.
-/

namespace PagePreview.Engine

open Script Text

/-! ## Comparing -/

/-- Whether two values are the same after conversions. -/
def looselySame (a b : Value) : Run Bool := do
  let compare (a b : Value) : Run (Option Bool) := do
    match a, b with
    | .undefined, .null | .null, .undefined => return some true
    | .number x, .text t => return some (x == textNumber t)
    | .text s, .number y => return some (textNumber s == y)
    | .bigint i, .text t => return some (textBigint? t == some i)
    | .text s, .bigint j => return some (textBigint? s == some j)
    | .bigint i, .number y => return some (Decimal.ofInt i == y && y.floor == y)
    | .number x, .bigint j => return some (Decimal.ofInt j == x && x.floor == x)
    | .object _, .object _ => return some (a.isSame b)
    | .undefined, _ | .null, _ | _, .undefined | _, .null => return some (a.isSame b)
    | .boolean _, .boolean _ | .number _, .number _ | .text _, .text _ | .bigint _, .bigint _
    | .symbol _, _ => return if b matches .object _ then none else some (a.isSame b)
    | _, _ => return none
  let number (v : Value) : Value := match v with
    | .boolean b => .number (if b then 1 else 0)
    | v => v
  match ← compare a b with
  | some r => return r
  | none =>
    let a ← toPrimitive .any (number a)
    let b ← toPrimitive .any (number b)
    match ← compare (number a) (number b) with
    | some r => return r
    | none => return a.isSame b

/-- Compares units in order. -/
def unitsLess : List Nat → List Nat → Bool
  | [], [] => false
  | [], _ :: _ => true
  | _ :: _, [] => false
  | a :: as, b :: bs => if a < b then true else if b < a then false else unitsLess as bs

/-- Whether one value comes before another; nothing if they cannot be compared. -/
def primitiveLess (a b : Value) : Run (Option Bool) := do
  match a, b with
  | .text s, .text t => return some (unitsLess (Units.ofString s) (Units.ofString t))
  | .bigint i, .bigint j => return some (i < j)
  | .bigint i, .text t => return (textBigint? t).map (i < ·)
  | .text s, .bigint j => return (textBigint? s).map (· < j)
  | .bigint i, _ =>
    let y ← primitiveNumber b
    if y.isNaN then return none
    if y.isInf then return some (0 < y)
    return some (decide (i < Decimal.truncated y.ceil))
  | _, .bigint j =>
    let x ← primitiveNumber a
    if x.isNaN then return none
    if x.isInf then return some (x < 0)
    return some (decide (Decimal.truncated x.floor < j))
  | _, _ =>
    let x ← primitiveNumber a
    let y ← primitiveNumber b
    if x.isNaN || y.isNaN then return none
    return some (x < y)

def relate (op : BinaryOp) (a b : Value) : Run Bool := do
  let a ← toPrimitive .number a
  let b ← toPrimitive .number b
  match op with
  | .less => return (← primitiveLess a b).getD false
  | .greater => return (← primitiveLess b a).getD false
  | .lessEqual => return (← primitiveLess b a).elim false (!·)
  | _ => return (← primitiveLess a b).elim false (!·)

/-! ## Arithmetic -/

/-- The power of two numbers. One raised to what is no finite number is no number. -/
def power (x y : Float) : Float :=
  if y.isNaN then nan
  else if y.isInf && x.abs == 1 then nan
  else Float.pow x y

/-- The power with a natural exponent, from the squares of `x`; each product is rounded. -/
def naturalPower (x : Float) (n : Nat) : Float :=
  go 1 x n
where
  go (r x : Float) (n : Nat) : Float :=
    let r := if n % 2 == 1 then r * x else r
    if n < 2 then r else go r (x * x) (n / 2)
  termination_by n

/-- The power that the operator gives. A whole exponent of an ordinary size is worked off by
squaring. -/
def operatorPower (x y : Float) : Float :=
  if y.floor == y && y.abs < 2147483648 then
    let n := y.abs.toUInt64.toNat
    if y < 0 then 1 / naturalPower x n else naturalPower x n
  else power x y

def numberArithmetic (op : BinaryOp) (x y : Float) : Float :=
  match op with
  | .power => operatorPower x y
  | _ => (Lowering.Constant.arithmetic op x y).getD nan

/-- Shifts a whole number to the left, or to the right if the distance is negative. -/
def shiftBigint (i distance : Int) : Run Int := do
  if (Nat.pow 2 30 : Nat) < distance then rangeError "Maximum BigInt size exceeded"
  return if 0 ≤ distance then i * (Nat.pow 2 distance.toNat : Nat) else i >>> (-distance).toNat

def bigintArithmetic (op : BinaryOp) (i j : Int) : Run Int := do
  match op with
  | .add => return i + j
  | .subtract => return i - j
  | .multiply => return i * j
  | .divide => if j == 0 then rangeError "BigInt division by zero" else return Int.tdiv i j
  | .remainder => if j == 0 then rangeError "BigInt division by zero" else return Int.tmod i j
  | .power =>
    if j < 0 then rangeError "BigInt negative exponent"
    if (Nat.pow 2 24 : Nat) < j then rangeError "Maximum BigInt size exceeded"
    return Int.pow i j.toNat
  | .shiftLeft => shiftBigint i j
  | .shiftRight => shiftBigint i (-j)
  | .bitAnd => return bitwise (· && ·) i j
  | .bitOr => return bitwise (· || ·) i j
  | .bitXor => return bitwise (· != ·) i j
  | _ => typeError "BigInts have no unsigned right shift, use >> instead"
where
  /-- Works on the bits of two whole numbers, of which there are as many as either needs. -/
  bitwise (f : Bool → Bool → Bool) (i j : Int) : Int :=
    let width := max (Int.natAbs i).log2 (Int.natAbs j).log2 + 2
    let bit (i : Int) (n : Nat) : Bool := (i >>> n) % 2 != 0
    let n := (List.range width).foldl
      (fun n k => if f (bit i k) (bit j k) then n + Nat.pow 2 k else n) 0
    Int.bmod n (Nat.pow 2 width)

def numericOperation (op : BinaryOp) (a b : Value) : Run Value := do
  match a, b with
  | .number x, .number y => return .number (numberArithmetic op x y)
  | .bigint i, .bigint j => return .bigint (← bigintArithmetic op i j)
  | _, _ => typeError "cannot mix BigInt and other types, use explicit conversions"

def arithmetic (op : BinaryOp) (a b : Value) : Run Value := do
  match op, a, b with
  | .add, .text s, .text t => return .text (s ++ t)
  | .add, .number x, .number y => return .number (x + y)
  | .add, _, _ =>
    let a ← toPrimitive .any a
    let b ← toPrimitive .any b
    match a, b with
    | .text s, b => return .text (s ++ (← primitiveText b))
    | a, .text t => return .text ((← primitiveText a) ++ t)
    | a, b =>
      let a ← toNumeric a
      let b ← toNumeric b
      numericOperation .add a b
  | _, _, _ =>
    let a ← toNumeric a
    let b ← toNumeric b
    numericOperation op a b

/-! ## Objects and classes -/

/-- Whether an object is among the prototypes of another one. -/
def isProtoOf (proto : Ref) : (bound : Nat) → Ref → Run Bool
  | 0, _ => throw .tooDeep
  | bound + 1, r => do
    match (← object r).proto with
    | none => return false
    | some p => if p == proto then return true else isProtoOf proto bound p

/-- Whether an object has been made by a constructor, by its prototypes. -/
def isMadeBy (bound : Nat) (v constructor : Value) : Run Bool := do
  match bound with
  | 0 => throw .tooDeep
  | bound + 1 =>
    match ← constructor.body with
    | .bound target _ _ _ => isMadeBy bound v target
    | _ =>
      match v, constructor with
      | .object r, .object c =>
        match ← getNamed c "prototype" with
        | .object proto => isProtoOf proto maxProtos r
        | _ => typeError "function has non-object prototype in instanceof check"
      | _, _ => return false

def instanceOf (v target : Value) : Run Bool := do
  match target with
  | .object t =>
    match ← methodOf t WellKnown.hasInstance.key with
    | some f => return (← call f target [v]).truth
    | none =>
      if !(← isCallable target) then
        typeError "right-hand side of 'instanceof' is not callable"
      isMadeBy maxProtos v target
  | _ =>
    typeError ("right-hand side of 'instanceof' should be an object, got `" ++ (← typeOf target) ++
      "`")

/-- Whether an object has a property, for `in`. -/
def isIn (key target : Value) : Run Bool := do
  match target with
  | .object t => hasProperty t (← toKey key)
  | _ =>
    typeError ("right-hand side of 'in' should be an object, got `" ++ (← typeOf target) ++ "`")

/-- An operator that needs both of its operands. -/
def operate (op : BinaryOp) (a b : Value) : Run Value := do
  match op with
  | .equal => return .boolean (← looselySame a b)
  | .notEqual => return .boolean !(← looselySame a b)
  | .same => return .boolean (a.isSame b)
  | .notSame => return .boolean !(a.isSame b)
  | .less | .lessEqual | .greater | .greaterEqual => return .boolean (← relate op a b)
  | .instanceof => return .boolean (← instanceOf a b)
  | .in => return .boolean (← isIn a b)
  | _ => arithmetic op a b

/-- The operators with one operand, but for `typeof` and `delete`, which may have a name. -/
def operateAlone (op : UnaryOp) (v : Value) : Run Value := do
  match op with
  | .plus => return .number (← toNumber v)
  | .minus =>
    match ← toNumeric v with
    | .bigint i => return .bigint (-i)
    | n => return .number (-(← primitiveNumber n))
  | .complement =>
    match ← toNumeric v with
    | .bigint i => return .bigint (-i - 1)
    | n => arithmetic .bitXor n (.number (-1))
  | .not => return .boolean !v.truth
  | .typeof => return .text (← typeOf v)
  | .void => return .undefined
  | .delete => return .boolean true

end PagePreview.Engine
