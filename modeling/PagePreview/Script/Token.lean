import PagePreview.Script.Literal
import PagePreview.Script.Syntax
import PagePreview.Text.Blank
import PagePreview.Text.Identifier
import PagePreview.Text.Search

/-!
# Tokens of scripts

`Lexer.next` takes a token from the front of a text, past blanks and
comments. What a `/`, a `}` or the text between markup tags is depends on
what came before, so the reader of scripts asks for those with `readPattern`,
`readChunk` and the `readMarkup…` functions, from the same place; and it puts
a token that begins with `<` or `>` together itself. A text that is no token
becomes a `fault`, which only counts if it is not read in another way.

A comment belongs to the token that follows it. It is dropped if it ends the
line that another token stands in, except behind an opening parenthesis or an
equals sign when it runs to the end of that line.
-/

namespace PagePreview.Script

open Text Literal

inductive Lexeme where
  /-- An identifier or keyword, and whether it was written with escapes. -/
  | word (text : String) (escaped : Bool)
  | privateName (text : String)
  | mark (text : String)
  | number (text : String)
  | bigint (text : String)
  | string (value : String) (lossy : Bool)
  | pattern (body flags : String)
  | chunk (raw : String) (cooked : Option String) (last : Bool)
  | markupText (text : String)
  | finish
  | fault
deriving DecidableEq, Repr

structure Token where
  lexeme : Lexeme
  start : Nat
  stop : Nat
  /-- Whether a line ends between the token before and this one. -/
  onNewLine : Bool
  /-- Whether a comment in front of it says that the call that follows has no effects. -/
  isPure : Bool := false
  /-- Whether a comment in front of it says that calls of the function that follows have none. -/
  isEffectFree : Bool := false
deriving DecidableEq, Repr

/-! ## Comments -/

/-- What is known about the comments so far. -/
structure Notes where
  /-- The comments up to the last token, last one first. -/
  done : List Comment := []
  /-- The comments since the last token, last one first. -/
  waiting : List Comment := []
  /-- Whether a line has ended since the last token. -/
  newline : Bool := true
  /-- Whether the last token was an opening parenthesis or an equals sign. -/
  opened : Bool := false
  /-- Whether a comment since the last token speaks of a call without effects. -/
  isPure : Bool := false
  /-- Whether a comment since the last token speaks of a function without effects. -/
  isEffectFree : Bool := false

namespace Notes

/-- Leaves the comments that wait to themselves. -/
def leave (n : Notes) : Notes := { n with done := n.waiting ++ n.done, waiting := [] }

def lineEnd (n : Notes) : Notes :=
  match n.waiting with
  | [] => { n with newline := true }
  | c :: cs =>
    if n.newline then { n with waiting := { c with beforeNewline := true } :: cs }
    else { n.leave with newline := true }

/-- Whether a comment, given without its marks, says something about effects. -/
def speaks (mark : String) (inside : List Char) : Bool :=
  match (inside.dropWhile isBlank) with
  | m :: cs => (m == '@' || m == '#') && startsWith mark.toList cs
  | [] => false

def isPureMark : List Char → Bool := speaks "__PURE__"

def isEffectFreeMark : List Char → Bool := speaks "__NO_SIDE_EFFECTS__"

/-- Takes note of a comment, given without its marks, that ends in front of some place. -/
def comment (n : Notes) (isBlock : Bool) (stop : Nat) (inside : List Char) : Notes :=
  let text := if isBlock then '/' :: '*' :: inside ++ ['*', '/'] else '/' :: '/' :: inside
  let place := stop - text.length
  let c : Comment :=
    { text := String.ofList text, place, isBlock, afterNewline := n.newline,
      beforeNewline := !isBlock, attached := place }
  let m := { n with
    waiting := c :: n.waiting
    isPure := n.isPure || isPureMark inside
    isEffectFree := n.isEffectFree || isEffectFreeMark inside }
  if isBlock then m
  else if !n.newline && !n.opened then { m.leave with newline := true }
  else { m with newline := true }

/-- Gives the comments to a token, except those that speak of effects. -/
def token (n : Notes) (start : Nat) (opens : Bool) : Notes :=
  let given (c : Comment) : Comment :=
    if isPureMark c.inside || isEffectFreeMark c.inside then c else { c with attached := start }
  { done := n.waiting.map given ++ n.done
    waiting := [], newline := false, opened := opens }

end Notes

/-! ## Blanks -/

/-- A place in a text: what follows it, and its number. -/
structure Cursor where
  rest : List Char
  offset : Nat := 0

def Cursor.skip (c : Cursor) (n : Nat) : Cursor := ⟨c.rest.drop n, c.offset + n⟩

/-- Blanks within a line. -/
def isSpace (c : Char) : Bool :=
  c == ' ' || c == '\t' || c == '\x0b' || c == '\x0c' || c == '\u00a0' || c == '\u0085' ||
    c == '\u1680' || c == '\u180e' || ('\u2000' ≤ c && c ≤ '\u200b') || c == '\u202f' ||
    c == '\u205f' || c == '\u3000' || c == '\ufeff'

/-- What the blanks between two tokens have come to: nothing, a comment to the end of the line,
or a bracketed one, each with its text in reverse. -/
inductive Gap where
  | blank
  | line (inside : List Char)
  | block (inside : List Char)

/-- What was met between two tokens. -/
structure Passed where
  cursor : Cursor
  notes : Notes
  onNewLine : Bool
  /-- Whether every comment is closed. -/
  closed : Bool := true

/-- Goes past blanks and comments. What is not closed counts as not passed. -/
def pass (gap : Gap) (offset : Nat) (notes : Notes) (onNewLine : Bool) : List Char → Passed
  | [] =>
    match gap with
    | .blank => ⟨⟨[], offset⟩, notes, onNewLine, true⟩
    | .line inside => ⟨⟨[], offset⟩, notes.comment false offset inside.reverse, onNewLine, true⟩
    | .block inside => ⟨⟨[], offset - inside.length - 2⟩, notes, onNewLine, false⟩
  | [c] =>
    match gap with
    | .blank =>
      if isLineEnd c then ⟨⟨[], offset + 1⟩, notes.lineEnd, true, true⟩
      else if isSpace c then ⟨⟨[], offset + 1⟩, notes, onNewLine, true⟩
      else ⟨⟨[c], offset⟩, notes, onNewLine, true⟩
    | .line inside =>
      if isLineEnd c then ⟨⟨[], offset + 1⟩, notes.comment false offset inside.reverse, true, true⟩
      else
        ⟨⟨[], offset + 1⟩, notes.comment false (offset + 1) (c :: inside).reverse, onNewLine, true⟩
    | .block inside => ⟨⟨[], offset - inside.length - 2⟩, notes, onNewLine, false⟩
  | c :: d :: rest =>
    match gap with
    | .blank =>
      if isLineEnd c then pass .blank (offset + 1) notes.lineEnd true (d :: rest)
      else if isSpace c then pass .blank (offset + 1) notes onNewLine (d :: rest)
      else if c == '/' && d == '/' then pass (.line []) (offset + 2) notes onNewLine rest
      else if c == '/' && d == '*' then pass (.block []) (offset + 2) notes onNewLine rest
      else ⟨⟨c :: d :: rest, offset⟩, notes, onNewLine, true⟩
    | .line inside =>
      if isLineEnd c then
        pass .blank (offset + 1) (notes.comment false offset inside.reverse) true (d :: rest)
      else pass (.line (c :: inside)) (offset + 1) notes onNewLine (d :: rest)
    | .block inside =>
      if c == '*' && d == '/' then
        pass .blank (offset + 2) (notes.comment true (offset + 2) inside.reverse) onNewLine rest
      else pass (.block (c :: inside)) (offset + 1) notes (onNewLine || isLineEnd c) (d :: rest)

/-! ## Single tokens -/

/-- The marks, the longest first. Those that begin with `>` are left in pieces, because type
arguments can end in several of them. -/
def marks : List String :=
  ["...", "===", "!==", "**=", "<<=", "&&=", "||=", "??=", "=>", "==", "!=", "++", "--", "**",
    "<<", "<=", "&&", "||", "??", "?.", "+=", "-=", "*=", "/=", "%=", "&=", "|=", "^=",
    "\x7b", "\x7d", "(", ")", "[", "]", ";", ",", "<", ">", "+", "-", "*", "/", "%", "&", "|", "^",
    "!", "~", "?", ":", "=", ".", "@"]

/-- The mark at the front of a text. A question mark in front of a number is not joined with the
point of that number. -/
def mark? (cs : List Char) : Option String :=
  match cs with
  | '?' :: '.' :: d :: _ => if d.isDigit then some "?" else some "?."
  | _ => marks.find? fun m => startsWith m.toList cs

/-- A part of an identifier: the value, what it was written with, and whether that was an
escape. -/
def identifierUnit? (first : Bool) (cs : List Char) : Option (Char × Nat × Bool) :=
  let allowed (c : Char) := if first then isIdentifierStart c else isIdentifierPart c
  match cs with
  | '\\' :: 'u' :: rest =>
    match codePoint? rest with
    | some (n, k) =>
      if isHalf n then none
      else if allowed (Char.ofNat n) then some (Char.ofNat n, k + 2, true) else none
    | none => none
  | c :: _ => if allowed c then some (c, 1, false) else none
  | [] => none

/-- The parts of an identifier from some place on: their values, their length, and whether one
was an escape. -/
def identifierFrom : (fuel : Nat) → (first : Bool) → List Char → List Char × Nat × Bool
  | 0, _, _ => ([], 0, false)
  | fuel + 1, first, cs =>
    match identifierUnit? first cs with
    | none => ([], 0, false)
    | some (c, k, e) =>
      let (more, n, escaped) := identifierFrom fuel false (cs.drop k)
      (c :: more, k + n, e || escaped)

/-- The identifier at the front of a text: its value, its length, and whether it was written with
escapes. -/
def identifier? (cs : List Char) : Option (String × Nat × Bool) :=
  match cs.span (fun c => c.isAlphanum || c == '$' || c == '_') with
  | (front, rest) =>
    let more := match rest.head? with
      | some c => c == '\\' || c.toNat ≥ 0x80
      | none => false
    match front with
    | c :: _ =>
      if c.isDigit then none
      else if more then
        let (name, n, escaped) := identifierFrom (rest.length + 1) false rest
        some (String.ofList (front ++ name), front.length + n, escaped)
      else some (String.ofList front, front.length, false)
    | [] =>
      if more then
        let (name, n, escaped) := identifierFrom (rest.length + 1) true rest
        if name.isEmpty then none else some (String.ofList name, n, escaped)
      else none

/-- Digits and single underscores between them. -/
def digitsSeparated (isDigit : Char → Bool) : (afterDigit : Bool) → List Char → Option (List Char)
  | _, [] => some []
  | afterDigit, c :: cs =>
    if isDigit c then (digitsSeparated isDigit true cs).map (c :: ·)
    else if c == '_' then
      match afterDigit, cs with
      | true, d :: _ => if isDigit d then (digitsSeparated isDigit false cs).map (c :: ·) else none
      | _, _ => none
    else some []

/-- The number at the front of a text. -/
def numberText? (cs : List Char) : Option (List Char) :=
  let based (isDigit : Char → Bool) (front rest : List Char) : Option (List Char) :=
    match digitsSeparated isDigit false rest with
    | some [] => none
    | some ds => some (front ++ ds ++ (if rest[ds.length]? == some 'n' then ['n'] else []))
    | none => none
  let isHex (c : Char) := (Hex.value? c).isSome
  match cs with
  | '0' :: m :: rest =>
    if m == 'x' || m == 'X' then based isHex ['0', m] rest
    else if m == 'o' || m == 'O' then based isOctal ['0', m] rest
    else if m == 'b' || m == 'B' then based (fun c => c == '0' || c == '1') ['0', m] rest
    else if m.isDigit then
      let digits := m :: rest.takeWhile Char.isDigit
      if digits.all isOctal then some ('0' :: digits)
      else fraction ('0' :: digits) (rest.drop (digits.length - 1))
    else if m == '_' then none
    else decimal cs
  | _ => decimal cs
where
  exponent (cs : List Char) : Option (List Char) :=
    match cs with
    | e :: rest =>
      if e == 'e' || e == 'E' then
        let (sign, rest) := match rest with
          | '+' :: r => (['+'], r)
          | '-' :: r => (['-'], r)
          | r => ([], r)
        match digitsSeparated Char.isDigit false rest with
        | some (d :: ds) => some (e :: sign ++ d :: ds)
        | _ => none
      else some []
    | [] => some []
  fraction (whole rest : List Char) : Option (List Char) := do
    match rest with
    | '.' :: rest =>
      let part ← digitsSeparated Char.isDigit false rest
      let e ← exponent (rest.drop part.length)
      some (whole ++ '.' :: part ++ e)
    | rest => some (whole ++ (← exponent rest))
  decimal (cs : List Char) : Option (List Char) := do
    let whole ← digitsSeparated Char.isDigit false cs
    let rest := cs.drop whole.length
    match rest with
    | 'n' :: _ => if whole.isEmpty then none else some (whole ++ ['n'])
    | rest => fraction whole rest

/-- The lexeme at the front of a text, and its length. -/
def lexeme (cs : List Char) : Lexeme × Nat :=
  match cs with
  | [] => (.finish, 0)
  | c :: rest =>
    if c == '"' || c == '\'' then
      match breakOff? c rest with
      | none => (.fault, 1)
      | some (raw, _) =>
        match cook? true raw with
        | none => (.fault, raw.length + 2)
        | some units => let (s, lossy) := ofUnits units; (.string s lossy, raw.length + 2)
    else if c.isDigit || (c == '.' && ((rest.head?.map Char.isDigit).getD false)) then
      match numberText? cs with
      | none => (.fault, 1)
      | some text =>
        let n := text.length
        match cs.drop n with
        | d :: _ =>
          if isIdentifierStart d || d.isDigit || d == '\\' then (.fault, n)
          else (number text, n)
        | [] => (number text, n)
    else if c == '#' then
      match identifier? rest with
      | some (name, n, _) => (.privateName name, n + 1)
      | none => (.fault, 1)
    else
      match mark? cs with
      | some m => (.mark m, m.length)
      | none =>
        match identifier? cs with
        | some (name, n, escaped) => (.word name escaped, n)
        | none => if c == '`' then (.mark "`", 1) else (.fault, 1)
where
  number (text : List Char) : Lexeme :=
    if text.getLast? == some 'n' then .bigint (String.ofList (text.dropLast.filter (· != '_')))
    else .number (String.ofList text)

/-! ## Reading on -/

/-- A place between two tokens. -/
structure Lexer where
  cursor : Cursor
  notes : Notes := {}

namespace Lexer

def emit (l : Lexer) (passed : Passed) (lexeme : Lexeme) (length : Nat) : Token × Lexer :=
  let start := passed.cursor.offset
  ({ lexeme, start, stop := start + length, onNewLine := passed.onNewLine,
     isPure := passed.notes.isPure, isEffectFree := passed.notes.isEffectFree },
    { l with
      cursor := passed.cursor.skip length
      notes := passed.notes.token start (lexeme == .mark "(" || lexeme == .mark "=") })

/-- The blanks in front of the next token. -/
def blanks (l : Lexer) : Passed := pass .blank l.cursor.offset l.notes false l.cursor.rest

def next (l : Lexer) : Token × Lexer :=
  let passed := l.blanks
  if passed.closed then
    let (lexeme, length) := Script.lexeme passed.cursor.rest
    l.emit passed lexeme length
  else l.emit passed .fault 0

/-- The letters behind a pattern. -/
def flags (cs : List Char) : List Char := cs.takeWhile isIdentifierPart

/-- The flags that a pattern can have, in the order in which they are written. -/
def patternFlags : List Char := "dgimsuvy".toList

/-- Reads a pattern in slashes. -/
def readPattern (l : Lexer) : Token × Lexer :=
  let passed := l.blanks
  match passed.cursor.rest with
  | '/' :: cs =>
    match breakOffPattern? false cs with
    | some (raw, rest) =>
      let flags := flags rest
      let length := raw.length + flags.length + 2
      if flags.all patternFlags.contains && flags.length == flags.eraseDups.length then
        l.emit passed (.pattern (String.ofList raw)
          (String.ofList (patternFlags.filter flags.contains))) length
      else l.emit passed .fault length
    | none => l.emit passed .fault 1
  | _ => l.emit passed .fault 0

/-- The text of a template with all its line ends alike. -/
def unifyLines : List Char → List Char
  | [] => []
  | '\r' :: '\n' :: cs => '\n' :: unifyLines cs
  | c :: cs => (if c == '\r' then '\n' else c) :: unifyLines cs

/-- Reads a piece of a template, from the backquote or the brace in front of it. -/
def readChunk (l : Lexer) : Token × Lexer :=
  let passed := l.blanks
  match breakOffChunk? (passed.cursor.rest.drop 1) with
  | some (raw, _, last) =>
    let cooked := (cook? false raw).map fun units => (ofUnits units).1
    l.emit passed (.chunk (String.ofList (unifyLines raw)) cooked last)
      (raw.length + (if last then 2 else 3))
  | none => l.emit passed .fault 1

/-- Reads what stands between tags: text, or the mark that ends it. -/
def readMarkup (l : Lexer) : Token × Lexer :=
  let passed : Passed := ⟨l.cursor, l.notes, false, true⟩
  let stops (c : Char) := c == '<' || c == '\x7b' || c == '>' || c == '\x7d'
  let text := l.cursor.rest.takeWhile (!stops ·)
  let rest := l.cursor.rest.drop text.length
  match text, rest with
  | [], '<' :: _ => l.emit passed (.mark "<") 1
  | [], '\x7b' :: _ => l.emit passed (.mark "\x7b") 1
  | _ :: _, '<' :: _ | _ :: _, '\x7b' :: _ =>
    l.emit passed (.markupText (String.ofList text)) text.length
  | _, _ => l.emit passed .fault 0

/-- Reads the value of an attribute as it is written, or another token. -/
def readMarkupString (l : Lexer) : Token × Lexer :=
  let passed := l.blanks
  match passed.cursor.rest with
  | q :: cs =>
    if q == '"' || q == '\'' then
      let text := cs.takeWhile (· != q)
      if text.length < cs.length then
        l.emit passed (.markupText (String.ofList text)) (text.length + 2)
      else l.emit passed .fault 1
    else l.next
  | [] => l.next

/-- Reads a name that may contain dashes. -/
def readMarkupName (l : Lexer) : Token × Lexer :=
  let passed := l.blanks
  match identifier? passed.cursor.rest with
  | some (name, n, escaped) =>
    let more := (passed.cursor.rest.drop n).takeWhile fun c => isIdentifierPart c || c == '-'
    l.emit passed (if escaped then .fault else .word (name ++ String.ofList more) false)
      (n + more.length)
  | none => l.next

/-- The longest mark that begins with `>`. -/
def readGreater (l : Lexer) : Token × Lexer :=
  let passed := l.blanks
  let longest := [">>>=", ">>=", ">>>", ">>", ">=", ">"].find? fun m =>
    startsWith m.toList passed.cursor.rest
  match longest with
  | some m => l.emit passed (.mark m) m.length
  | none => l.next

/-- The mark `<` alone, even if more of it follows. -/
def readLess (l : Lexer) : Token × Lexer :=
  let passed := l.blanks
  match passed.cursor.rest with
  | '<' :: _ => l.emit passed (.mark "<") 1
  | _ => l.next

end Lexer

end PagePreview.Script
