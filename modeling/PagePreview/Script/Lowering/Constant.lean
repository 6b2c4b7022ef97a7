import PagePreview.Decimal.Nearest
import PagePreview.Script.Numeral
import PagePreview.Script.Syntax

/-!
# Constant expressions

Members of enumerations have constant values where they can be computed from
numbers, texts and members that come before. `evaluate` computes such a
value, given what names and members of other enumerations stand for.
-/

namespace PagePreview.Script.Lowering

inductive Constant where
  | number (value : Float)
  | text (value : String)

/-- The values of the members of an enumeration; nothing for a member without a constant one. -/
abbrev Members := List (String × Option Constant)

/-- The members of a value's enumeration that come later count. -/
def Members.find? (ms : Members) (name : String) : Option (Option Constant) :=
  (ms.reverse.find? (·.1 == name)).map (·.2)

/-- The enumerations by name. -/
abbrev Enumerations := List (String × Members)

def Enumerations.members (es : Enumerations) (name : String) : Members :=
  ((es.find? (·.1 == name)).map (·.2)).getD []

def Enumerations.set (es : Enumerations) (name : String) (ms : Members) : Enumerations :=
  (name, ms) :: es.filter (·.1 != name)

namespace Constant

open Decimal

def shown : Constant → String
  | number x => String.ofList (Numeral.shown x)
  | text s => s

/-- The bits of a number as a machine word. -/
def word (x : Float) : Nat := unsignedWord x

def ofWord (n : Nat) : Float := ofInt (signedWord n)

/-- How far a shift goes. -/
def distance (x : Float) : Nat := word x % 32

def arithmetic (op : BinaryOp) (x y : Float) : Option Float :=
  match op with
  | .add => some (x + y)
  | .subtract => some (x - y)
  | .multiply => some (x * y)
  | .divide => some (x / y)
  | .remainder => some (Decimal.remainder x y)
  | .power => some (Float.pow x y)
  | .bitOr => some (ofWord (word x ||| word y))
  | .bitXor => some (ofWord (word x ^^^ word y))
  | .bitAnd => some (ofWord (word x &&& word y))
  | .shiftLeft => some (ofWord (word x <<< distance y))
  | .shiftRight => some (ofInt (signedWord (word x) >>> distance y))
  | .shiftRightZero => some (ofInt (word x >>> distance y))
  | _ => none

def binary (op : BinaryOp) : Constant → Constant → Option Constant
  | number x, number y => (arithmetic op x y).map number
  | x, y => if op == .add then some (text (x.shown ++ y.shown)) else none

def unary (op : UnaryOp) : Constant → Option Constant
  | number x =>
    match op with
    | .plus => some (number x)
    | .minus => some (number (-x))
    | .complement => some (number (ofInt (-(signedWord (word x)) - 1)))
    | _ => none
  | text s =>
    match op with
    | .minus => some (number (0.0 / 0.0))
    | .complement => some (number (-1))
    | _ => some (text s)

end Constant

/-- The name of a member that is taken from something. -/
def propertyName? (n : Node) : Option String :=
  match n.kind with
  | .member _ => (n.child 1).name?
  | .index _ => (n.child 1).string?
  | _ => none

mutual

/-- The value of a constant expression. -/
def evaluate (es : Enumerations) (own : Members) : Node → Option Constant
  | .mk (.number t) _ _ => some (.number (Numeral.value t))
  | .mk (.string s _) _ _ => some (.text s)
  | .mk .template _ cs => (evaluateChunks es own cs).map Constant.text
  | .mk .paren _ [e] => evaluate es own e
  | .mk (.unary op) _ [e] =>
    match evaluate es own e with
    | some x => x.unary op
    | none => none
  | .mk (.binary op) _ [l, r] =>
    match evaluate es own l, evaluate es own r with
    | some x, some y => x.binary op y
    | _, _ => none
  | .mk (.name s) _ _ =>
    if s == "Infinity" then some (.number Decimal.infinity)
    else if s == "NaN" then some (.number (0.0 / 0.0))
    else (own.find? s).join
  | .mk k s [o, p] =>
    match o.name?, propertyName? (.mk k s [o, p]) with
    | some e, some m => ((es.members e).find? m).join
    | _, _ => none
  | _ => none

/-- The text of a template whose parts are texts. -/
def evaluateChunks (es : Enumerations) (own : Members) : List Node → Option String
  | [] => some ""
  | .mk (.chunk _ cooked) _ _ :: cs =>
    match cooked, evaluateChunks es own cs with
    | some s, some t => some (s ++ t)
    | _, _ => none
  | c :: cs =>
    match evaluate es own c, evaluateChunks es own cs with
    | some (.text s), some t => some (s ++ t)
    | _, _ => none

end

end PagePreview.Script.Lowering
