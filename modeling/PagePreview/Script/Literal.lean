import PagePreview.Text.Hex

/-!
# What stands between quotes

A literal is read in two steps: `breakOff?` finds the end of it, and `cook?`
replaces its escapes by what they stand for. The values are numbers rather
than characters because an escape can stand for one half of a surrogate pair.

A `string` cannot hold a lone half. `ofUnits` writes one as U+FFFD and its
four digits, and then marks the text as lossy; `quoted` undoes that.
-/

namespace PagePreview.Script.Literal

open Text

def isLineEnd (c : Char) : Bool :=
  c == '\n' || c == '\r' || c == '\u2028' || c == '\u2029'

/-! ## The end of a literal -/

/-- The text up to the closing quote and what follows it. A line end closes nothing, unless a
backslash stands in front of it. -/
def breakOff? (quote : Char) : List Char → Option (List Char × List Char)
  | [] => none
  | '\\' :: '\r' :: '\n' :: cs =>
    (breakOff? quote cs).map fun (raw, rest) => ('\\' :: '\r' :: '\n' :: raw, rest)
  | '\\' :: c :: cs => (breakOff? quote cs).map fun (raw, rest) => ('\\' :: c :: raw, rest)
  | c :: cs =>
    if c == quote then some ([], cs)
    else if c == '\n' || c == '\r' then none
    else (breakOff? quote cs).map fun (raw, rest) => (c :: raw, rest)

/-- The text of a template up to its end or to the next expression, what follows, and whether
the template is at its end. -/
def breakOffChunk? : List Char → Option (List Char × List Char × Bool)
  | [] => none
  | '\\' :: c :: cs => (breakOffChunk? cs).map fun (raw, rest) => ('\\' :: c :: raw, rest)
  | '$' :: '{' :: cs => some ([], cs, false)
  | c :: cs =>
    if c == '`' then some ([], cs, true)
    else (breakOffChunk? cs).map fun (raw, rest) => (c :: raw, rest)

/-- The text of a pattern up to the closing slash and what follows it. A slash in brackets
closes nothing. -/
def breakOffPattern? (inClass : Bool) : List Char → Option (List Char × List Char)
  | [] => none
  | '\\' :: c :: cs =>
    if isLineEnd c then none
    else (breakOffPattern? inClass cs).map fun (raw, rest) => ('\\' :: c :: raw, rest)
  | c :: cs =>
    if isLineEnd c then none
    else if c == '/' && !inClass then some ([], cs)
    else
      (breakOffPattern? (c == '[' || (inClass && c != ']')) cs).map fun (raw, rest) =>
        (c :: raw, rest)

/-! ## Escapes -/

def isHigh (n : Nat) : Bool := 0xD800 ≤ n && n ≤ 0xDBFF
def isLow (n : Nat) : Bool := 0xDC00 ≤ n && n ≤ 0xDFFF

/-- The number of a `u` escape, given what follows the `u`, and how many characters it takes. -/
def codePoint? (cs : List Char) : Option (Nat × Nat) :=
  match cs with
  | '{' :: rest =>
    let digits := rest.takeWhile (· != '}')
    match rest.drop digits.length, Hex.read? digits with
    | '}' :: _, some n => if digits != [] && n ≤ 0x10FFFF then some (n, digits.length + 2) else none
    | _, _ => none
  | a :: b :: c :: d :: rest =>
    match Hex.read? [a, b, c, d] with
    | none => none
    | some high =>
      match isHigh high, rest with
      | true, '\\' :: 'u' :: e :: f :: g :: h :: _ =>
        match Hex.read? [e, f, g, h] with
        | some low =>
          if isLow low then some (0x10000 + (high - 0xD800) * 0x400 + (low - 0xDC00), 10)
          else some (high, 4)
        | none => some (high, 4)
      | _, _ => some (high, 4)
  | _ => none

def isOctal (c : Char) : Bool := '0' ≤ c && c ≤ '7'

/-- The values of the escape whose backslash stands in front of `c` and `cs`, and how many
characters of `cs` it takes. -/
def escape? (octal : Bool) (c : Char) (cs : List Char) : Option (List Nat × Nat) :=
  match c with
  | 'n' => some ([10], 0)
  | 't' => some ([9], 0)
  | 'r' => some ([13], 0)
  | 'b' => some ([8], 0)
  | 'f' => some ([12], 0)
  | 'v' => some ([11], 0)
  | '\n' | '\u2028' | '\u2029' => some ([], 0)
  | '\r' => some ([], if cs.head? == some '\n' then 1 else 0)
  | 'x' => (Hex.read? (cs.take 2)).bind fun n =>
    if (cs.take 2).length == 2 then some ([n], 2) else none
  | 'u' => (codePoint? cs).map fun (n, k) => ([n], k)
  | c =>
    if !c.isDigit then some ([c.toNat], 0)
    else if c == '0' && !((cs.head?.map Char.isDigit).getD false) then some ([0], 0)
    else if !octal then none
    else if isOctal c then
      let more := (cs.take (if c ≤ '3' then 2 else 1)).takeWhile isOctal
      some ([(c :: more).foldl (fun n d => n * 8 + (d.toNat - 48)) 0], more.length)
    else some ([c.toNat], 0)

/-- The values of a literal's text. Line ends are all the same. -/
def cookFrom? (octal : Bool) : (fuel : Nat) → List Char → Option (List Nat)
  | 0, _ => some []
  | fuel + 1, cs =>
    match cs with
    | [] => some []
    | '\\' :: c :: rest =>
      match escape? octal c rest with
      | some (ns, k) => (cookFrom? octal fuel (rest.drop k)).map (ns ++ ·)
      | none => none
    | '\r' :: '\n' :: rest => (cookFrom? octal fuel rest).map (10 :: ·)
    | c :: rest => (cookFrom? octal fuel rest).map ((if c == '\r' then 10 else c.toNat) :: ·)

/-- The values of a literal's text. In strings, but not in templates, escapes with digits in
base eight are allowed. -/
def cook? (octal : Bool) (raw : List Char) : Option (List Nat) :=
  cookFrom? octal raw.length raw

/-! ## Lone halves of surrogate pairs -/

def isHalf (n : Nat) : Bool := isHigh n || isLow n

/-- A text with the given values, and whether it stands for something no text can hold. -/
def ofUnits (ns : List Nat) : String × Bool :=
  if ns.any isHalf then
    (String.ofList (ns.flatMap fun n =>
      if isHalf n || n == 0xFFFD then '\uFFFD' :: (Hex.digits 4 n)
      else [Char.ofNat n]), true)
  else (String.ofList (ns.map Char.ofNat), false)

/-! ## Writing -/

/-- A character in double quotes. A zero is written with two digits in front of a digit. -/
def escaped (c : Char) (next : Option Char) : List Char :=
  match c with
  | '\x00' => if (next.map Char.isDigit).getD false then "\\x00".toList else "\\0".toList
  | '\x07' => "\\x07".toList
  | '\x08' => "\\b".toList
  | '\x0b' => "\\v".toList
  | '\x0c' => "\\f".toList
  | '\n' => "\\n".toList
  | '\r' => "\\r".toList
  | '\x1b' => "\\x1B".toList
  | '\\' => "\\\\".toList
  | '"' => "\\\"".toList
  | '\u00a0' => "\\xA0".toList
  | '\u2028' => "\\u2028".toList
  | '\u2029' => "\\u2029".toList
  | c => [c]

def escapedChars (lossy : Bool) : List Char → List Char
  | [] => []
  | '\uFFFD' :: a :: b :: c :: d :: rest =>
    if lossy then
      (if [a, b, c, d] == "fffd".toList then ['\uFFFD'] else '\\' :: 'u' :: [a, b, c, d]) ++
        escapedChars lossy rest
    else '\uFFFD' :: escapedChars lossy (a :: b :: c :: d :: rest)
  | c :: rest => escaped c rest.head? ++ escapedChars lossy rest

/-- A text in double quotes. -/
def quoted (lossy : Bool) (text : String) : List Char :=
  '"' :: escapedChars lossy text.toList ++ ['"']

end PagePreview.Script.Literal
