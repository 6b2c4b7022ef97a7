/-!
# Blank characters and trimming

Two notions of blank are in use. `isBlank` is the Unicode property
`White_Space`: it decides what trimming removes. `isAsciiBlank` is the set
of five characters that separate the parts of a tag or of a declaration.

Everything works on lists of characters; a `String` is taken apart at the
edge. `trim` never looks inside the text, so what it keeps is a contiguous
part of what it was given.
-/

namespace PagePreview.Text

/-- The Unicode property `White_Space`. -/
def isBlank (c : Char) : Bool :=
  let n := c.toNat
  (9 ≤ n && n ≤ 13) || n == 0x20 || n == 0x85 || n == 0xA0 || n == 0x1680 ||
    (0x2000 ≤ n && n ≤ 0x200A) || n == 0x2028 || n == 0x2029 || n == 0x202F ||
    n == 0x205F || n == 0x3000

/-- Tab, line feed, form feed, carriage return and space. -/
def isAsciiBlank (c : Char) : Bool :=
  c == ' ' || c == '\t' || c == '\n' || c == '\r' || c == '\x0c'

theorem isBlank_of_isAsciiBlank {c : Char} (h : isAsciiBlank c = true) : isBlank c = true := by
  simp only [isAsciiBlank, Bool.or_eq_true, beq_iff_eq] at h
  rcases h with (((rfl | rfl) | rfl) | rfl) | rfl <;> decide

/-- Drops the characters that satisfy `p` at the end. -/
def dropEndWhile (p : Char → Bool) (cs : List Char) : List Char :=
  (cs.reverse.dropWhile p).reverse

/-- Drops blank characters at both ends. -/
def trimChars (cs : List Char) : List Char :=
  dropEndWhile isBlank (cs.dropWhile isBlank)

/-- Drops blank characters at both ends. -/
def trim (s : String) : String := String.ofList (trimChars s.toList)

/-- Whether nothing but blank characters is there. -/
def isAllBlank (s : String) : Bool := s.toList.all isBlank

end PagePreview.Text
