import PagePreview.Json.Basic
import PagePreview.Json.Fault
import PagePreview.Text.Utf8

/-!
# Reading JSON

A `Reader` takes its value from the front of a text and keeps track of the
place it has come to. There are two ways to read a value: `value` takes
whatever is there, and readers such as `text` and `flag` take one kind only
and say what they found otherwise. `sequence` and `record` walk through an
array or an object and leave each item to another reader, so that a fault is
reported where it stands.

Numbers are exact as long as they fit into 64 bits, with or without a sign.
Others are read as a significand of at most 64 bits that is multiplied or
divided by one power of ten.

Arrays and objects may be nested in each other at most 127 times.
-/

namespace PagePreview.Json

open Text

/-! ## Places -/

def Place.afterByte (p : Place) (b : UInt8) : Place :=
  if b == 10 then ⟨p.line + 1, 0⟩ else ⟨p.line, p.column + 1⟩

def Place.after (p : Place) (c : Char) : Place :=
  if c == '\n' then ⟨p.line + 1, 0⟩ else ⟨p.line, p.column + c.utf8Size⟩

/-- A text that is being read: what is left of it, and where that begins. -/
structure Cursor where
  rest : List Char
  place : Place := {}

def Cursor.skip (c : Cursor) (n : Nat) : Cursor :=
  ⟨c.rest.drop n, (c.rest.take n).foldl Place.after c.place⟩

/-- The place behind the next byte, if there is one. -/
def Cursor.ahead (c : Cursor) : Place :=
  match c.rest with
  | [] => c.place
  | d :: _ => if d == '\n' then c.place.after d else ⟨c.place.line, c.place.column + 1⟩

/-- A reader either fails, having come to some place, or gives a value and the rest. Failures
that say what was wrong with a value leave the place open, because the reader around it goes on
to the end of the array or object first. -/
abbrev Reader (α : Type) := Cursor → Except Fault (α × Cursor)

namespace Reader

instance : Monad Reader where
  pure a := fun c => .ok (a, c)
  bind r f := fun c => match r c with
    | .ok (a, c) => f a c
    | .error e => .error e

/-- Fails with the place the reader has come to. -/
def fail {α : Type} (cause : Cause) : Reader α := fun c => .error ⟨cause, c.place⟩

/-- Fails with the place behind the next byte. -/
def failAhead {α : Type} (cause : Cause) : Reader α := fun c => .error ⟨cause, c.ahead⟩

def peek : Reader (Option Char) := fun c => .ok (c.rest.head?, c)

def skip (n : Nat := 1) : Reader Unit := fun c => .ok ((), c.skip n)

/-- Takes the characters that satisfy `p`. -/
def takeWhile (p : Char → Bool) : Reader (List Char) := fun c =>
  let taken := c.rest.takeWhile p
  .ok (taken, c.skip taken.length)

end Reader

open Reader

def isBlank (c : Char) : Bool := c == ' ' || c == '\n' || c == '\t' || c == '\r'

/-- Skips blanks and looks at the character behind them. -/
def peekPastBlanks : Reader (Option Char) := do
  let _ ← takeWhile isBlank
  peek

/-! ## Keywords -/

/-- Takes the letters of a keyword. -/
def keyword : List Char → Reader Unit
  | [] => pure ()
  | k :: ks => do
    match ← peek with
    | none => fail .endInValue
    | some c => if c == k then skip; keyword ks else failAhead .expectedKeyword

/-! ## Numbers -/

def maxUnsigned : Nat := Nat.pow 2 64 - 1

/-- The digits that can be added to a significand without leaving 64 bits, their number, and
whether any were left over. -/
def extend (significand count : Nat) : List Char → Nat × Nat × Bool
  | [] => (significand, count, false)
  | d :: ds =>
    let next := significand * 10 + (d.toNat - 48)
    if next > maxUnsigned then (significand, count, true) else extend next (count + 1) ds

/-- Divides by powers of ten of at most 308 until the exponent is used up. -/
def scaleDown : (steps : Nat) → Float → (exponent : Nat) → Float
  | 0, f, _ => f
  | steps + 1, f, exponent =>
    if exponent ≤ 308 then f / Float.ofScientific 1 false exponent
    else if f == 0 then f
    else scaleDown steps (f / Float.ofScientific 1 false 308) (exponent - 308)

/-- `significand * 10 ^ exponent`. -/
def scaled (negative : Bool) (significand : Nat) (exponent : Int) : Reader Float := do
  let f := Float.ofNat significand
  let signed (f : Float) : Float := if negative then -f else f
  if exponent < 0 then return signed (scaleDown 20 f exponent.natAbs)
  else if 308 < exponent then
    if f == 0 then return signed f else fail .numberOutOfRange
  else
    let f := f * Float.ofScientific 1 false exponent.toNat
    if f.isInf then fail .numberOutOfRange else return signed f

/-- The bound that an exponent must not pass while it is read. -/
def maxExponent : Nat := Nat.pow 2 31 - 1

/-- The value of exponent digits, or how many digits were taken when it grew too large. -/
def exponentValue (value count : Nat) : List Char → Except Nat Nat
  | [] => .ok value
  | d :: ds =>
    let next := value * 10 + (d.toNat - 48)
    if next > maxExponent then .error (count + 1) else exponentValue next (count + 1) ds

/-- The exponent of a number, from its letter on. -/
def exponentPart (negative : Bool) (significand : Nat) (shift : Int) : Reader Float := do
  skip
  let sign ← peek
  if sign == some '+' || sign == some '-' then skip
  match ← peek with
  | none => fail .endInValue
  | some d =>
    if !d.isDigit then failAhead .invalidNumber
    else
      skip
      let start ← fun c => .ok (c, c)
      let ds ← takeWhile Char.isDigit
      match exponentValue (d.toNat - 48) 0 ds with
      | .ok e => scaled negative significand (if sign == some '-' then shift - e else shift + e)
      | .error taken =>
        if significand != 0 && sign != some '-' then
          fun _ => fail .numberOutOfRange (start.skip taken)
        else return if negative then -0.0 else 0.0

/-- The digits behind the point of a number, from the point on. -/
def fractionPart (negative : Bool) (significand : Nat) (shift : Int) : Reader Float := do
  skip
  let ds ← takeWhile Char.isDigit
  if ds.isEmpty then
    match ← peek with
    | some _ => failAhead .invalidNumber
    | none => fail .endInValue
  else
    let (significand, count, _) := extend significand 0 ds
    let shift := shift - count
    match ← peek with
    | some 'e' | some 'E' => exponentPart negative significand shift
    | _ => scaled negative significand shift

/-- A number behind its sign. -/
def number (negative : Bool) : Reader Json := do
  match ← peek with
  | none => fail .endInValue
  | some d =>
    if !d.isDigit then failAhead .invalidNumber
    else
      skip
      let more ← if d == '0' then pure [] else takeWhile Char.isDigit
      let next ← peek
      if d == '0' && next.any Char.isDigit then failAhead .invalidNumber
      else
        let (significand, count, long) := extend (d.toNat - 48) 0 more
        let shift : Int := more.length - count
        match next with
        | some '.' => .float <$> fractionPart negative significand shift
        | some 'e' | some 'E' => .float <$> exponentPart negative significand shift
        | _ =>
          if long then .float <$> scaled negative significand shift
          else if !negative then return .int significand
          else if significand == 0 || Nat.pow 2 63 < significand then
            return .float (-(Float.ofNat significand))
          else return .int (-significand)

/-- A number with its sign. -/
def signedNumber : Reader Json := do
  match ← peek with
  | some '-' => skip; number true
  | _ => number false

/-! ## Strings -/

/-- The value of four hexadecimal digits at the front. -/
def hexUnit (cs : List Char) (place : Place) : Except Fault Nat :=
  let front := (Utf8.encode (cs.take 4)).take 4
  let place := front.foldl Place.afterByte place
  if front.length < 4 then .error ⟨.endInString, place⟩
  else match Hex.read? (cs.take 4) with
    | some n => .ok n
    | none => .error ⟨.invalidEscape, place⟩

/-- The character of an escape behind its backslash, and how many characters it takes. -/
def escape (cs : List Char) (place : Place) : Except Fault (Char × Nat) :=
  let along (n : Nat) : Place := (cs.take n).foldl Place.after place
  match cs with
  | [] => .error ⟨.endInString, place⟩
  | '"' :: _ => .ok ('"', 1)
  | '\\' :: _ => .ok ('\\', 1)
  | '/' :: _ => .ok ('/', 1)
  | 'b' :: _ => .ok ('\x08', 1)
  | 'f' :: _ => .ok ('\x0c', 1)
  | 'n' :: _ => .ok ('\n', 1)
  | 'r' :: _ => .ok ('\r', 1)
  | 't' :: _ => .ok ('\t', 1)
  | 'u' :: rest => do
    let high ← hexUnit rest (along 1)
    if 0xDC00 ≤ high && high ≤ 0xDFFF then .error ⟨.loneSurrogate, along 5⟩
    else if high < 0xD800 || 0xDFFF < high then .ok (Char.ofNat high, 5)
    else match rest.drop 4 with
      | [] => .error ⟨.endInString, along 5⟩
      | '\\' :: [] => .error ⟨.endInString, along 6⟩
      | '\\' :: 'u' :: rest =>
        let low ← hexUnit rest (along 7)
        if low < 0xDC00 || 0xDFFF < low then .error ⟨.loneSurrogate, along 11⟩
        else .ok (Char.ofNat (0x10000 + (high - 0xD800) * 0x400 + (low - 0xDC00)), 11)
      | '\\' :: d :: _ => .error ⟨.endOfEscape, (Cursor.mk [d] (along 6)).ahead⟩
      | d :: _ => .error ⟨.endOfEscape, (Cursor.mk [d] (along 5)).ahead⟩
  | c :: _ => .error ⟨.invalidEscape, (Cursor.mk [c] place).ahead⟩

/-- The characters of a string up to and with its closing quote. -/
def stringBody (cs : List Char) (place : Place) : Except Fault (List Char × Cursor) :=
  match cs with
  | [] => .error ⟨.endInString, place⟩
  | '"' :: rest => .ok ([], ⟨rest, place.after '"'⟩)
  | '\\' :: rest => do
    let (c, taken) ← escape rest (place.after '\\')
    let (more, cursor) ← stringBody (rest.drop taken)
      ⟨place.line, place.column + 1 + taken⟩
    .ok (c :: more, cursor)
  | c :: rest =>
    if c.toNat < 0x20 then .error ⟨.controlCharacter, place.after c⟩
    else do
      let (more, cursor) ← stringBody rest (place.after c)
      .ok (c :: more, cursor)
termination_by cs.length
decreasing_by all_goals (simp only [List.length_cons, List.length_drop]; omega)

/-- A string from its opening quote on. -/
def quotedString : Reader String := fun c => do
  let c := c.skip 1
  let (cs, c) ← stringBody c.rest c.place
  .ok (String.ofList cs, c)

/-! ## Arrays and objects -/

/-- How often arrays and objects may be nested, and one more. -/
def depthLimit : Nat := 128

/-- Looks whether another item of an array follows. -/
def hasItem (first : Bool) : Reader Bool := do
  match ← peekPastBlanks with
  | none => failAhead .endInList
  | some ']' => return false
  | some ',' =>
    if first then return true
    else
      skip
      match ← peekPastBlanks with
      | some ']' => failAhead .trailingComma
      | some _ => return true
      | none => failAhead .endInValue
  | some _ => if first then return true else failAhead .expectedCommaOrBracket

/-- Looks whether another field of an object follows; its key is next then. -/
def hasField (first : Bool) : Reader Bool := do
  match ← peekPastBlanks with
  | none => failAhead .endInObject
  | some '\x7d' => return false
  | some c =>
    if first then
      if c == '"' then return true else failAhead .keyNotString
    else if c == ',' then
      skip
      match ← peekPastBlanks with
      | some '"' => return true
      | some '\x7d' => failAhead .trailingComma
      | some _ => failAhead .keyNotString
      | none => failAhead .endInValue
    else failAhead .expectedCommaOrBrace

def colon : Reader Unit := do
  match ← peekPastBlanks with
  | some ':' => skip
  | some _ => failAhead .expectedColon
  | none => failAhead .endInObject

/-- Takes the end of an array. -/
def endArray : Reader Unit := do
  match ← peekPastBlanks with
  | some ']' => skip
  | some ',' =>
    skip
    match ← peekPastBlanks with
    | some ']' => failAhead .trailingComma
    | _ => failAhead .trailingCharacters
  | some _ => failAhead .trailingCharacters
  | none => failAhead .endInList

/-- Takes the end of an object. -/
def endObject : Reader Unit := do
  match ← peekPastBlanks with
  | some '\x7d' => skip
  | some ',' => failAhead .trailingComma
  | some _ => failAhead .trailingCharacters
  | none => failAhead .endInObject

/-- Reads the items of an array; `steps` bounds their number. -/
def items {α : Type} (item : Reader α) : (steps : Nat) → (first : Bool) → Reader (List α)
  | 0, _ => return []
  | steps + 1, first => do
    if ← hasItem first then
      let a ← item
      return a :: (← items item steps false)
    else return []

/-- Reads the fields of an object; `steps` bounds their number. -/
def fields {α : Type} (value : Reader α) :
    (steps : Nat) → (first : Bool) → Reader (List (String × α))
  | 0, _ => return []
  | steps + 1, first => do
    if ← hasField first then
      let key ← quotedString
      colon
      let v ← value
      return (key, v) :: (← fields value steps false)
    else return []

/-- One more than the characters that are left: no array or object has as many items. -/
def bound : Reader Nat := fun c => .ok (c.rest.length + 1, c)

/-- Reads a value of any kind. -/
def valueWithin : (depth : Nat) → Reader Json
  | 0 => failAhead .tooDeep
  | depth + 1 => do
    match ← peekPastBlanks with
    | none => failAhead .endInValue
    | some 'n' => skip; keyword "ull".toList; return .null
    | some 't' => skip; keyword "rue".toList; return .bool true
    | some 'f' => skip; keyword "alse".toList; return .bool false
    | some '"' => .string <$> quotedString
    | some '[' =>
      if depth == 0 then failAhead .tooDeep
      else
        skip
        let list ← items (valueWithin depth) (← bound) true
        endArray
        return .array list
    | some '\x7b' =>
      if depth == 0 then failAhead .tooDeep
      else
        skip
        let list ← fields (valueWithin depth) (← bound) true
        endObject
        return ofFields list
    | some c => if c == '-' || c.isDigit then signedNumber else failAhead .expectedValue

def value : Reader Json := valueWithin depthLimit

/-! ## Values of one kind -/

/-- Takes a value of the wrong kind as far as its kind shows, and says so. -/
def wrongType {α : Type} (wanted : String) : Reader α := do
  let refuse (found : Found) : Reader α := fail (.wrongType found wanted)
  match ← peek with
  | some 'n' => skip; keyword "ull".toList; refuse .null
  | some 't' => skip; keyword "rue".toList; refuse (.bool true)
  | some 'f' => skip; keyword "alse".toList; refuse (.bool false)
  | some '"' => refuse (.string (← quotedString))
  | some '[' => refuse .sequence
  | some '\x7b' => refuse .map
  | some c =>
    if c == '-' || c.isDigit then
      match ← signedNumber with
      | .int i => refuse (.int i)
      | .float x => refuse (.float x)
      | _ => failAhead .expectedValue
    else failAhead .expectedValue
  | none => failAhead .expectedValue

def text : Reader String := do
  match ← peekPastBlanks with
  | none => failAhead .endInValue
  | some '"' => quotedString
  | some _ => wrongType "a string"

def flag : Reader Bool := do
  match ← peekPastBlanks with
  | none => failAhead .endInValue
  | some 't' => skip; keyword "rue".toList; return true
  | some 'f' => skip; keyword "alse".toList; return false
  | some _ => wrongType "a boolean"

/-- A whole number from zero to `limit`, which error texts call `wanted`. -/
def naturalUpTo (limit : Nat) (wanted : String) : Reader Nat := do
  match ← peekPastBlanks with
  | none => failAhead .endInValue
  | some c =>
    if c == '-' || c.isDigit then
      match ← signedNumber with
      | .int i =>
        if 0 ≤ i && i ≤ limit then return i.toNat else fail (.wrongValue (.int i) wanted)
      | .float x => fail (.wrongType (.float x) wanted)
      | _ => failAhead .expectedValue
    else wrongType wanted

/-- A value that may be `null`. -/
def optional {α : Type} (r : Reader α) : Reader (Option α) := do
  match ← peekPastBlanks with
  | some 'n' => skip; keyword "ull".toList; return none
  | _ => some <$> r

/-- An array whose items are read by `item`. -/
def sequence {α : Type} (item : Reader α) : Reader (List α) := do
  match ← peekPastBlanks with
  | none => failAhead .endInValue
  | some '[' =>
    skip
    let list ← items item (← bound) true
    endArray
    return list
  | some _ => wrongType "a sequence"

/-- Any values in an array. -/
def anySequence : Reader (List Json) := sequence (valueWithin (depthLimit - 1))

/-! ## Whole texts -/

/-- Reads a text that holds one value and nothing else. -/
def readWhole {α : Type} (r : Reader α) (s : String) : Except Fault α := do
  let (a, c) ← r ⟨s.toList, {}⟩
  let (next, c) ← peekPastBlanks c
  match next with
  | none => .ok a
  | some _ => (failAhead .trailingCharacters c).map (fun (u : Unit × Cursor) => (fun _ => a) u)

/-- Reads a text as a value of any kind. -/
def read (s : String) : Except Fault Json := readWhole value s

end PagePreview.Json
