/-!
# Labels outside ASCII, written in ASCII

A label is written as its ASCII characters, a hyphen, and a row of letters
and digits that says which other characters stand between them. The row is
made of numbers whose digits have weights that adapt to the numbers before.

Reading is the inverse: it rebuilds the label from an empty one by
insertions, and fails on a row that ends inside a number or that leaves the
range of characters.
-/

namespace PagePreview.Url.Punycode

def base : Nat := 36
def tMin : Nat := 1
def tMax : Nat := 26
def skew : Nat := 38
def damp : Nat := 700
def initialBias : Nat := 72
def initialCode : Nat := 128

/-- The letter or digit of a value below 36. -/
def digit (n : Nat) : Char := Char.ofNat (if n < 26 then 97 + n else 22 + n)

def digitValue? (c : Char) : Option Nat :=
  let n := c.toNat
  if 48 ≤ n && n ≤ 57 then some (n - 22)
  else if 97 ≤ n && n ≤ 122 then some (n - 97)
  else if 65 ≤ n && n ≤ 90 then some (n - 65)
  else none

/-- Divides until the bias fits; each step makes `delta` smaller. -/
def adaptFrom (k delta : Nat) : Nat :=
  if delta > ((base - tMin) * tMax) / 2 then adaptFrom (k + base) (delta / (base - tMin))
  else k + (base - tMin + 1) * delta / (delta + skew)
termination_by delta
decreasing_by
  simp only [base, tMin, tMax] at *
  omega

/-- The bias after a number. -/
def adapt (delta count : Nat) (first : Bool) : Nat :=
  let delta := if first then delta / damp else delta / 2
  adaptFrom 0 (delta + delta / count)

/-- The weight limit of the digit at position `k`. -/
def threshold (k bias : Nat) : Nat :=
  if k ≤ bias + tMin then tMin else if k ≥ bias + tMax then tMax else k - bias

/-- Writes a number; `steps` bounds its digits. -/
def writeNumber (bias : Nat) : (steps k q : Nat) → List Char
  | 0, _, _ => []
  | steps + 1, k, q =>
    let t := threshold k bias
    if q < t then [digit q]
    else digit (t + (q - t) % (base - t)) ::
      writeNumber bias steps (k + base) ((q - t) / (base - t))

structure State where
  delta : Nat := 0
  bias : Nat := initialBias
  handled : Nat
  first : Bool := true

/-- Writes where the characters with number `code` stand in the rest of the label. -/
def writeCode (code : Nat) : List Nat → State → List Char × State
  | [], s => ([], s)
  | c :: cs, s =>
    if c < code then writeCode code cs { s with delta := s.delta + 1 }
    else if c == code then
      let text := writeNumber s.bias (s.delta + 1) base s.delta
      let (more, s) := writeCode code cs
        ⟨0, adapt s.delta (s.handled + 1) s.first, s.handled + 1, false⟩
      (text ++ more, s)
    else writeCode code cs s

/-- Writes the characters with number `code` or more; there are at most `steps` different ones. -/
def writeFrom (label : List Nat) : (steps code : Nat) → State → List Char
  | 0, _, _ => []
  | steps + 1, code, s =>
    match (label.filter (code ≤ ·)).min? with
    | none => []
    | some next =>
      let (text, s) := writeCode next label
        { s with delta := s.delta + (next - code) * (s.handled + 1) }
      text ++ writeFrom label steps (next + 1) { s with delta := s.delta + 1 }

/-- Writes a label in ASCII. -/
def encode (label : List Char) : List Char :=
  let basic := label.filter (·.toNat < 128)
  let head := if basic.isEmpty then [] else basic ++ ['-']
  head ++ writeFrom (label.map Char.toNat) label.length initialCode
    { handled := basic.length }

/-- Reads a number: its value and what follows it. -/
def readNumber (bias : Nat) (k weight value : Nat) : List Char → Option (Nat × List Char)
  | [] => none
  | c :: cs => do
    let d ← digitValue? c
    let value := value + d * weight
    let t := threshold k bias
    if d < t then some (value, cs)
    else readNumber bias (k + base) (weight * (base - t)) value cs

/-- Reads insertions into `label` until the row ends; `steps` bounds their number. -/
def readFrom : (steps : Nat) → (label : List Nat) → (code i bias : Nat) → List Char →
    Option (List Nat)
  | _, label, _, _, _, [] => some label
  | 0, _, _, _, _, _ => none
  | steps + 1, label, code, i, bias, cs => do
    let (value, rest) ← readNumber bias base 1 i cs
    let count := label.length + 1
    let code := code + value / count
    let place := value % count
    let bias := adapt (value - i) count (i == 0)
    if code > 0x10FFFF || (0xD800 ≤ code && code ≤ 0xDFFF) then none
    else
      readFrom steps (label.take place ++ code :: label.drop place) code (place + 1) bias rest

/-- The part before the last hyphen, if there is a hyphen, and the part behind it. -/
def splitAtHyphen (cs : List Char) : List Char × List Char :=
  let back := cs.reverse
  match back.dropWhile (· != '-') with
  | [] => ([], cs)
  | _ :: front => (front.reverse, (back.takeWhile (· != '-')).reverse)

/-- Reads a label that was written in ASCII. -/
def decode (cs : List Char) : Option (List Char) :=
  let (basic, row) := splitAtHyphen cs
  if basic.any (128 ≤ ·.toNat) then none
  else (readFrom row.length (basic.map Char.toNat) initialCode 0 initialBias row).map
    (·.map Char.ofNat)

end PagePreview.Url.Punycode
