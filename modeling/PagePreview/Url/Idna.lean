import PagePreview.Text.Composition
import PagePreview.Text.LetterCase
import PagePreview.Text.Visible
import PagePreview.Url.Punycode

/-!
# Host names outside ASCII

A host name is brought into one spelling before it is used: capital letters
become small ones, wide forms become plain ones, characters that cannot be
seen go away, letters are joined with their marks, and each label with
characters outside ASCII is written in ASCII. `toAscii` does this, or refuses
a name with a character that no name may have.

The mapping covers the alphabets of Europe and the compatibility forms of
ASCII; all other characters stand for themselves, those without a meaning
included. No name is refused because of the direction of its letters. In
ASCII the mapping is complete.
-/

namespace PagePreview.Url.Idna

open Text

/-- Whether an ASCII character may stand in a host name; capital letters have become small ones
before. -/
def isAllowedAscii (c : Char) : Bool :=
  0x20 < c.toNat && c.toNat < 0x7F && !c.isUpper && !"%#/:<>?@[\\]^|".toList.contains c

/-- Characters that are dropped from a name. -/
def ignoredRanges : List (Nat × Nat) :=
  [(0xAD, 0xAD), (0x34F, 0x34F), (0x180B, 0x180D), (0x180F, 0x180F), (0x200B, 0x200B),
    (0x2060, 0x2060), (0x2064, 0x2064), (0xFE00, 0xFE0F), (0xFEFF, 0xFEFF), (0xE0100, 0xE01EF)]

/-- Characters that no name may have. -/
def forbiddenRanges : List (Nat × Nat) :=
  [(0x80, 0x9F), (0x600, 0x605), (0x61C, 0x61C), (0x6DD, 0x6DD), (0x70F, 0x70F), (0x1680, 0x1680),
    (0x200E, 0x200F), (0x2028, 0x202E), (0x2061, 0x2063), (0x2065, 0x206F), (0x2FF0, 0x2FFF),
    (0xE000, 0xF8FF), (0xFDD0, 0xFDEF), (0xFFF0, 0xFFFF), (0x1D173, 0x1D17A), (0xE0000, 0xE00FF),
    (0xE01F0, 0x10FFFF)]

/-- Blanks that count as the space, which no name may have. -/
def blankRanges : List (Nat × Nat) :=
  [(0xA0, 0xA0), (0x2000, 0x200A), (0x202F, 0x202F), (0x205F, 0x205F), (0x3000, 0x3000)]

/-- Single characters with a mapping of their own. -/
def singles : List (Nat × List Char) :=
  [(0xAA, ['a']), (0xB2, ['2']), (0xB3, ['3']), (0xB5, ['μ']), (0xB9, ['1']), (0xBA, ['o']),
    (0x130, ['i', '\u0307']), (0x178, ['ÿ']), (0x17F, ['s']), (0x386, ['ά']), (0x38C, ['ό']),
    (0x38E, ['ύ']), (0x38F, ['ώ']), (0x4C0, ['ӏ']), (0x1E9E, ['s', 's']), (0x2024, ['.']),
    (0x2025, ['.', '.']), (0x2026, ['.', '.', '.']), (0x2044, ['⁄']), (0x2116, ['n', 'o']),
    (0x2122, ['t', 'm']), (0x2126, ['ω']), (0x212A, ['k']), (0x212B, ['å']), (0x3002, ['.']),
    (0xFF61, ['.'])]

/-- What a character of a name is mapped to; none if no name may have it. -/
def mapChar (c : Char) : Option (List Char) :=
  let n := c.toNat
  if n < 128 then some [c.toLower]
  else if Visible.inRanges ignoredRanges n then some []
  else if Visible.inRanges blankRanges n then some [' ']
  else if Visible.inRanges forbiddenRanges n then none
  else match singles.lookup n with
    | some cs => some cs
    | none =>
      if 0xFF01 ≤ n && n ≤ 0xFF5E then some [(Char.ofNat (n - 0xFEE0)).toLower]
      else some [Char.ofNat (smallLetter n)]

def mapName (cs : List Char) : Option (List Char) :=
  cs.foldr (fun c acc => do some ((← mapChar c) ++ (← acc))) (some [])

/-- Splits at full stops. -/
def labels : List Char → List (List Char)
  | [] => [[]]
  | c :: cs =>
    match labels cs with
    | [] => [[c]]
    | first :: others => if c == '.' then [] :: first :: others else (c :: first) :: others

def joinLabels : List (List Char) → List Char
  | [] => []
  | [last] => last
  | first :: others => first ++ '.' :: joinLabels others

def isAscii (cs : List Char) : Bool := cs.all (·.toNat < 128)

/-- Signs that take the vowel from a letter of an Indian script. -/
def vowelKillers : List Nat :=
  [0x94D, 0x9CD, 0xA4D, 0xACD, 0xB4D, 0xBCD, 0xC4D, 0xCCD, 0xD4D, 0xDCA, 0xE3A, 0xF84, 0x1039, 0x103A,
    0x1714, 0x1734, 0x17D2]

/-- Arabic letters that are joined to the letter before them only. -/
def halfJoined : List Nat :=
  [0x622, 0x623, 0x624, 0x625, 0x627, 0x629, 0x62F, 0x630, 0x631, 0x632, 0x648, 0x671, 0x688, 0x691,
    0x698, 0x6C0, 0x6C3, 0x6D2, 0x6D5]

def isArabicLetter (n : Nat) : Bool := (0x622 ≤ n && n ≤ 0x64A) || (0x66E ≤ n && n ≤ 0x6D5)

/-- Whether each joiner stands where it changes what is seen: behind a sign that takes the vowel
away, or, if it keeps letters apart, between two that would be joined. -/
def joinersFit : (before : Nat) → List Char → Bool
  | _, [] => true
  | before, c :: cs =>
    let fits :=
      if c.toNat == 0x200D then vowelKillers.contains before
      else if c.toNat == 0x200C then
        vowelKillers.contains before ||
          (isArabicLetter before && !halfJoined.contains before &&
            (cs.head?.map fun d => isArabicLetter d.toNat).getD false)
      else true
    fits && joinersFit c.toNat cs

/-- Whether a label outside ASCII is in its final spelling. -/
def isValidLabel (cs : List Char) : Bool :=
  (match cs with
    | [] => false
    | c :: _ => !Visible.inRanges Visible.combiningRanges c.toNat) &&
  (cs.all fun c => mapChar c == some [c]) && Composition.compose cs == cs && joinersFit 0 cs

/-- A label in ASCII. A label that claims to be written in ASCII must be what writing gives. -/
def labelToAscii (label : List Char) : Option (List Char) :=
  match label with
  | 'x' :: 'n' :: '-' :: '-' :: row => do
    let decoded ← Punycode.decode row
    if isAscii decoded || !isValidLabel decoded then none
    else if Punycode.encode decoded != row then none
    else some label
  | _ =>
    if isAscii label then some label
    else if isValidLabel label then some ("xn--".toList ++ Punycode.encode label)
    else none

/-- A host name in ASCII. -/
def toAscii (name : List Char) : Option (List Char) := do
  let mapped ← mapName name
  let ascii ← (labels (Composition.compose mapped)).mapM labelToAscii
  let joined := joinLabels ascii
  if joined.all isAllowedAscii then some joined else none

end PagePreview.Url.Idna
