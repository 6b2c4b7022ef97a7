import PagePreview.Script.Literal
import PagePreview.Script.Syntax
import PagePreview.Text.Blank
import PagePreview.Text.Identifier
import PagePreview.Text.Search

/-!
# The text that is printed

A `Writer` adds to a text. Some decisions depend on what has just been
printed: two words need a blank between them, two signs must not run into
each other, and an expression that begins a statement must not look like a
declaration. For these the places where such things ended or began are kept
as lengths of the text.

Comments are printed where the token begins that they belong to. A comment
within a line leaves the line open, and then the next indentation is only a
blank.
-/

namespace PagePreview.Script

open Text

structure Output where
  /-- The text, last character first. -/
  text : List Char := []
  length : Nat := 0
  indent : Nat := 0
  /-- Whether the next indentation is only a blank. -/
  inLine : Bool := false
  statementStart : Option Nat := none
  arrowStart : Option Nat := none
  defaultStart : Option Nat := none
  /-- The end of the last operator that is a sign, and that operator. -/
  signEnd : Option (Nat × String) := none
  patternEnd : Option Nat := none
  /-- The end of a number that a point must not follow. -/
  wholeEnd : Option Nat := none
  /-- The comments that have not been printed. -/
  comments : List Comment

abbrev Writer := StateM Output

namespace Writer

/-! ## Characters -/

def putChars (cs : List Char) : Writer Unit := modify fun o =>
  { o with text := cs.reverse ++ o.text, length := o.length + cs.length }

def put (s : String) : Writer Unit := putChars s.toList

def space : Writer Unit := put " "

def newline : Writer Unit := put "\n"

def length : Writer Nat := return (← get).length

/-- Begins a line: with tabs, or with a blank where a line was left open. -/
def indentation : Writer Unit := do
  let o ← get
  if o.inLine then
    set { o with inLine := false }
    space
  else putChars (List.replicate o.indent '\t')

def more : Writer Unit := modify fun o => { o with indent := o.indent + 1 }

def less : Writer Unit := modify fun o => { o with indent := o.indent - 1 }

/-- Keeps a word from running into what is in front of it. -/
def gap : Writer Unit := do
  let o ← get
  match o.text with
  | [] => pure ()
  | c :: _ => if isIdentifierPart c || o.patternEnd == some o.length then space

/-- A word of its own. -/
def word (s : String) : Writer Unit := do
  gap
  put s

/-- Which signs run into each other: of the same kind, or a decrement and `>`. -/
def collide (last next : String) : Bool :=
  (last == "+" && (next == "+" || next == "++")) || (last == "-" && (next == "-" || next == "--"))

/-- Keeps the sign that is to come from running into one that ends here. -/
def keepSignApart (s : String) : Writer Unit := do
  let o ← get
  match o.signEnd with
  | some (n, last) => if n == o.length && collide last s then space
  | none => pure ()

/-- An operator that is a sign. -/
def sign (s : String) : Writer Unit := do
  keepSignApart s
  put s
  modify fun o => { o with signEnd := some (o.length, s) }

/-- What `body` prints, in parentheses if `condition` holds. -/
def wrap (condition : Bool) (body : Writer Unit) : Writer Unit := do
  if condition then
    put "("
    body
    put ")"
  else body

/-- The items with `between` in between. -/
def joined {α : Type} (between : Writer Unit) (item : α → Writer Unit) : List α → Writer Unit
  | [] => pure ()
  | [a] => item a
  | a :: as => do
    item a
    between
    joined between item as

def commaSpace : Writer Unit := put ", "

/-- The items on lines of their own, with commas. -/
def lines {α : Type} (item : α → Writer Unit) (items : List α) : Writer Unit := do
  more
  joined (put ",") (fun a => do newline; indentation; item a) items
  newline
  less
  indentation

/-- What `body` prints in braces: on lines of its own, unless `single` holds. -/
def braces (single : Bool) (body : Writer Unit) : Writer Unit := do
  put "\x7b"
  if !single then
    newline
    more
  body
  if !single then
    less
    indentation
  put "\x7d"

/-! ## Comments -/

def takeComments (start : Nat) : Writer (List Comment) := do
  let o ← get
  set { o with comments := o.comments.filter (·.attached != start) }
  return o.comments.filter (·.attached == start)

def hasComments (start : Nat) : Writer Bool :=
  return (← get).comments.any (·.attached == start)

/-- The pieces of a text between the characters that end lines. -/
def splitLines : List Char → List (List Char)
  | [] => [[]]
  | c :: cs =>
    if Literal.isLineEnd c then [] :: splitLines cs
    else
      match splitLines cs with
      | l :: ls => (c :: l) :: ls
      | [] => [[c]]

/-- A comment. The lines of a bracketed one are indented like everything else. -/
def comment (c : Comment) : Writer Unit := do
  if !c.isBlock then put c.text
  else
    for l in splitLines c.text.toList do
      if !startsWith "/*".toList l then indentation
      putChars (l.dropWhile isBlank)
      if !startsWith "/*".toList l.reverse then newline

/-- Goes to a new line for the first of some comments, unless it is there. -/
def freshLine : Writer Unit := do
  match (← get).text with
  | [] => pure ()
  | '\n' :: _ => indentation
  | '\t' :: _ => pure ()
  | _ => newline; indentation

/-- Whether a comment is about the right to use the text. -/
def isLegal (c : Comment) : Bool :=
  let inside := c.inside
  let isDoc := c.isBlock && inside.head? == some '*'
  let front := inside.dropWhile isBlank
  inside.head? == some '!' ||
    (!isDoc && (startsWith "@license".toList front || startsWith "@preserve".toList front)) ||
    contains "@license".toList inside.dropLast || contains "@preserve".toList inside

def commentsInOrder (first : Bool) : List Comment → Writer Unit
  | [] => pure ()
  | c :: cs => do
    if first then
      if c.afterNewline then freshLine else indentation
    else if c.afterNewline then newline; indentation
    else if isLegal c then newline
    comment c
    if cs.isEmpty then
      if !c.isBlock || c.beforeNewline then newline
      else modify fun o => { o with inLine := true }
    commentsInOrder false cs

/-- The comments that belong to the token at some place. -/
def leading (start : Nat) : Writer Unit := do
  commentsInOrder true (← takeComments start)

/-- The comments that belong to the token at some place within an expression, each on a line of
its own; whether there were some. -/
def inner (start : Nat) : Writer Bool := do
  match ← takeComments start with
  | [] => return false
  | cs =>
    for c in cs do
      newline
      indentation
      comment c
    newline
    return true

end Writer

end PagePreview.Script
