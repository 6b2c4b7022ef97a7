/-!
# Operators of scripts

How tightly an expression binds is a `Level`, a number. An operand is put in
parentheses where its own level is not above the one its place asks for, so
the reader and the printer share one table.
-/

namespace PagePreview.Script

/-! ## Levels -/

/-- How tightly an expression binds. -/
abbrev Level := Nat

namespace Level

def lowest : Level := 0
def comma : Level := 1
def spread : Level := 2
def yield : Level := 3
def assign : Level := 4
def conditional : Level := 5
def nullish : Level := 6
def logicalOr : Level := 7
def logicalAnd : Level := 8
def bitOr : Level := 9
def bitXor : Level := 10
def bitAnd : Level := 11
def equals : Level := 12
def compare : Level := 13
def shift : Level := 14
def add : Level := 15
def multiply : Level := 16
def exponent : Level := 17
def unary : Level := 18
def update : Level := 19
def new : Level := 20
def call : Level := 21

end Level

/-! ## Operators with one operand -/

inductive UnaryOp where
  | plus | minus | not | complement | typeof | void | delete
deriving DecidableEq, Repr

namespace UnaryOp

def text : UnaryOp → String
  | plus => "+"
  | minus => "-"
  | not => "!"
  | complement => "~"
  | typeof => "typeof"
  | void => "void"
  | delete => "delete"

def isWord : UnaryOp → Bool
  | typeof | void | delete => true
  | _ => false

def all : List UnaryOp := [plus, minus, not, complement, typeof, void, delete]

def ofText? (s : String) : Option UnaryOp := all.find? (·.text == s)

end UnaryOp

/-! ## Operators with two operands -/

inductive BinaryOp where
  | nullish | or | and | bitOr | bitXor | bitAnd
  | equal | notEqual | same | notSame
  | less | lessEqual | greater | greaterEqual | «in» | instanceof
  | shiftLeft | shiftRight | shiftRightZero
  | add | subtract | multiply | divide | remainder | power
deriving DecidableEq, Repr

namespace BinaryOp

def text : BinaryOp → String
  | nullish => "??"
  | or => "||"
  | and => "&&"
  | bitOr => "|"
  | bitXor => "^"
  | bitAnd => "&"
  | equal => "=="
  | notEqual => "!="
  | same => "==="
  | notSame => "!=="
  | less => "<"
  | lessEqual => "<="
  | greater => ">"
  | greaterEqual => ">="
  | «in» => "in"
  | instanceof => "instanceof"
  | shiftLeft => "<<"
  | shiftRight => ">>"
  | shiftRightZero => ">>>"
  | add => "+"
  | subtract => "-"
  | multiply => "*"
  | divide => "/"
  | remainder => "%"
  | power => "**"

def level : BinaryOp → Level
  | nullish => Level.nullish
  | or => Level.logicalOr
  | and => Level.logicalAnd
  | bitOr => Level.bitOr
  | bitXor => Level.bitXor
  | bitAnd => Level.bitAnd
  | equal | notEqual | same | notSame => Level.equals
  | less | lessEqual | greater | greaterEqual | «in» | instanceof => Level.compare
  | shiftLeft | shiftRight | shiftRightZero => Level.shift
  | add | subtract => Level.add
  | multiply | divide | remainder => Level.multiply
  | power => Level.exponent

def isWord : BinaryOp → Bool
  | «in» | instanceof => true
  | _ => false

/-- The operators that can stand in front of `=`. -/
def assigns : BinaryOp → Bool
  | nullish | or | and | bitOr | bitXor | bitAnd | shiftLeft | shiftRight | shiftRightZero
  | add | subtract | multiply | divide | remainder | power => true
  | _ => false

def all : List BinaryOp :=
  [nullish, or, and, bitOr, bitXor, bitAnd, equal, notEqual, same, notSame, less, lessEqual,
    greater, greaterEqual, «in», instanceof, shiftLeft, shiftRight, shiftRightZero, add, subtract,
    multiply, divide, remainder, power]

def ofText? (s : String) : Option BinaryOp := all.find? (·.text == s)

/-- The operator that is assigned with, from the text of an assignment: nothing for `=`. -/
def ofAssignment? (s : String) : Option (Option BinaryOp) :=
  if s == "=" then some none
  else (all.find? fun op => op.assigns && op.text ++ "=" == s).map some

end BinaryOp

end PagePreview.Script
