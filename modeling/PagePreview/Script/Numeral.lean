import PagePreview.Decimal.Nearest
import PagePreview.Decimal.Notation
import PagePreview.Text.Hex

/-!
# Number literals

`Numeral.value` is the number that a literal stands for, `Numeral.shortest`
the shortest of several ways to write a number that is not negative: in
full, with an exponent, or in hexadecimal digits. Whole numbers below a
thousand are always written in full.
-/

namespace PagePreview.Script.Numeral

open Decimal

/-! ## Reading -/

def digit (c : Char) : Nat := (Text.Hex.value? c).getD 0

/-- The number with the given digits in a base. -/
def natValue (base : Nat) (cs : List Char) : Nat :=
  cs.foldl (fun n c => n * base + digit c) 0

/-- A signed whole number. -/
def exponentValue : List Char → Int
  | '-' :: cs => -(natValue 10 cs : Int)
  | '+' :: cs => natValue 10 cs
  | cs => natValue 10 cs

/-- The value of a literal in decimal digits. -/
def decimalValue (cs : List Char) : Float :=
  let (front, tail) := cs.span (fun c => !(c == 'e' || c == 'E'))
  let (whole, part) := front.span (· != '.')
  let part := part.drop 1
  nearest (natValue 10 (whole ++ part)) (exponentValue (tail.drop 1) - part.length)

/-- The value of a literal. One that begins with `0` and goes on with digits is in base eight
unless a digit does not allow it. -/
def value (text : String) : Float :=
  match text.toList.filter (· != '_') with
  | '0' :: mark :: cs =>
    if mark == 'x' || mark == 'X' then nearest (natValue 16 cs) 0
    else if mark == 'o' || mark == 'O' then nearest (natValue 8 cs) 0
    else if mark == 'b' || mark == 'B' then nearest (natValue 2 cs) 0
    else if (mark :: cs).all (fun c => '0' ≤ c && c ≤ '7') then nearest (natValue 8 (mark :: cs)) 0
    else decimalValue ('0' :: mark :: cs)
  | cs => decimalValue cs

/-! ## Writing -/

/-- The number as scripts show it. -/
def shown (x : Float) : List Char :=
  if x.isNaN then "NaN".toList
  else if x.isInf then (if x < 0 then "-Infinity" else "Infinity").toList
  else Notation.script.render x

def isWhole (x : Float) : Bool := x.floor == x

/-- The whole number that a number is, for one that is not negative. -/
def wholeValue (x : Float) : Nat :=
  let b := Binary.ofBits x.toBits
  b.mantissa * Nat.pow 2 b.exponent.toNat / Nat.pow 2 (-b.exponent).toNat

/-- Drops the zero before the point and the plus sign of the exponent. -/
def tightened (cs : List Char) : List Char :=
  (match cs with
    | '0' :: '.' :: rest => '.' :: rest
    | other => other).filter (· != '+')

/-- The forms with another exponent: `1000` as `1e3`, `.001` as `1e-3`, `1.5e10` as `15e9`. -/
def shifted (cs : List Char) : List (List Char) :=
  let small :=
    match cs with
    | '.' :: '0' :: rest =>
      let digits := rest.dropWhile (· == '0')
      if rest.all Char.isDigit then
        [digits ++ 'e' :: '-' :: natDigits (rest.length + 1)]
      else []
    | _ => []
  let zeros := (cs.reverse.takeWhile (· == '0')).length
  let large :=
    if zeros > 0 then [cs.take (cs.length - zeros) ++ 'e' :: natDigits zeros]
    else
      match cs.span (· != '.') with
      | (whole, '.' :: rest) =>
        match rest.span (· != 'e') with
        | (part, 'e' :: exponent) =>
          [whole ++ part ++ 'e' :: intDigits (exponentValue exponent - part.length)]
        | _ => []
      | _ => []
  small ++ large

/-- The first of the shortest texts. -/
def firstShortest (best : List Char) : List (List Char) → List Char
  | [] => best
  | c :: cs => firstShortest (if c.length < best.length then c else best) cs

/-- The shortest text for a finite number that is not negative. -/
def shortest (x : Float) : List Char :=
  if x < 1000 && isWhole x then shown x
  else
    let plain := tightened (shown x)
    let hex := if isWhole x then ['0' :: 'x' :: (Nat.toDigits 16 (wholeValue x))] else []
    firstShortest plain (hex ++ shifted plain)

end PagePreview.Script.Numeral
