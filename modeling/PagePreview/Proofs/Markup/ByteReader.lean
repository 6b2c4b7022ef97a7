import PagePreview.Markup.Document
import PagePreview.Proofs.Text.ByteOffsets

/-!
# Reading a page by byte offsets

A page can be read with a cursor that is a byte offset.  Every byte is then
fetched by its offset, names and texts are cut out from one offset to another,
and loops move the cursor until it has left the page.  The readers here work
that way.  They check what they do: a fetch where no byte is, a cut inside a
character and a loop that does not move on are faults.

`readDocument` is the reader of a whole page; `nodePass` is one pass of its
loop, and `Visits` says where that loop comes by.
-/

namespace PagePreview.Markup

open Text Utf8

/-! ## Classes of bytes -/

def isBlankByte (b : UInt8) : Bool :=
  b == byteOf ' ' || b == byteOf '\t' || b == byteOf '\n' || b == byteOf '\r' ||
    b == byteOf '\x0c'

def isLetterByte (b : UInt8) : Bool := (0x41 ≤ b && b ≤ 0x5A) || (0x61 ≤ b && b ≤ 0x7A)

def isAlnumByte (b : UInt8) : Bool := isLetterByte b || (0x30 ≤ b && b ≤ 0x39)

/-- Bytes of an element name. -/
def isNameByte (b : UInt8) : Bool :=
  isAlnumByte b || b == byteOf '-' || b == byteOf '_' || b == byteOf ':'

/-- Bytes of an attribute name. -/
def isAttributeByte (b : UInt8) : Bool :=
  !(isBlankByte b || b == byteOf '=' || b == byteOf '>' || b == byteOf '/')

/-- Bytes of an attribute value without quotes. -/
def isBareValueByte (b : UInt8) : Bool := !(isBlankByte b || b == byteOf '>')

def opensMarkupByte (b : UInt8) : Bool :=
  isLetterByte b || b == byteOf '/' || b == byteOf '!' || b == byteOf '?'

/-! ## Declarations -/

/-- The offset of the first character with a property. -/
def offsetWhere (q : Char → Bool) (cs : List Char) : Option Nat :=
  if cs.any q then some (size (cs.takeWhile (!q ·))) else none

/-- The first text in quotes, and what follows its closing quote. -/
def quotedPart (text : List Char) : Except ScanFault (Option (List Char × List Char)) :=
  match offsetWhere (fun c => c == '"' || c == '\'') text with
  | none => return none
  | some start => do
    match ← slice text start (size text) with
    | [] => return none
    | quote :: _ =>
      let body ← slice text (start + 1) (size text)
      match offsetWhere (· == quote) body with
      | none => return none
      | some stop => return some (← slice body 0 stop, ← slice body (stop + 1) (size body))

/-- An identifier counts if it is not empty. -/
def identifierOf (part : Option (List Char × List Char)) : Option String :=
  ((part.map Prod.fst).filter (!·.isEmpty)).map String.ofList

/-- Reads a declaration of the document type. -/
def doctypeAt (declaration : List Char) : Except ScanFault Doctype := do
  let body ← slice declaration 9 (size declaration)
  let inner := trimChars (dropEndWhile (· == '>') body)
  let (name, rest) := breakWhere isAsciiBlank inner
  let rest := trimChars (rest.drop 1)
  let name := String.ofList (lowerChars name)
  if startsIgnoringCase (encode "public".toList) (encode rest) then
    let ids ← slice rest 6 (size rest)
    let first ← quotedPart ids
    let second ← quotedPart (first.elim ids Prod.snd)
    return ⟨name, identifierOf first, identifierOf second⟩
  else if startsIgnoringCase (encode "system".toList) (encode rest) then
    let ids ← slice rest 6 (size rest)
    return ⟨name, none, identifierOf (← quotedPart ids)⟩
  else return ⟨name, none, none⟩

section Readers

variable (text : List Char)

/-! ## Tags -/

def skipBlanks (i : Nat) : Except ScanFault Nat := scanWhile text isBlankByte i

/-- The value of an attribute, and the offset behind it. -/
def valueAt (i : Nat) : Except ScanFault (Option (List Char × Nat)) :=
  if size text ≤ i then return none
  else do
    let quote ← byteAt text i
    if quote == byteOf '"' || quote == byteOf '\'' then
      let bytes ← bytesBetween text (i + 1) (size text)
      match positionWhere [quote].isPrefixOf bytes with
      | none => return none
      | some k => return some (← slice text (i + 1) (i + 1 + k), i + 1 + k + 1)
    else
      let stop ← scanWhile text isBareValueByte i
      return some (← slice text i stop, stop)

/-- The value that follows an attribute name. -/
def valueAfterNameAt (i : Nat) : Except ScanFault (Option (List Char × Nat)) := do
  let i ← skipBlanks text i
  if (byte? text i).any (· == byteOf '=') then
    let i ← skipBlanks text (i + 1)
    valueAt text i
  else return some ([], i)

/-- Reads an attribute; a byte that begins none is passed over. -/
def attributePass (seen : List Attribute) (i : Nat) :
    Except ScanFault (Option (TagBody × Nat) ⊕ List Attribute × Nat) := do
  let stop ← scanWhile text isAttributeByte i
  if stop == i then return .inr (seen, i + 1)
  else
    let name ← slice text i stop
    match ← valueAfterNameAt text stop with
    | none => return .inl none
    | some (value, next) => return .inr (addAttribute name value seen, next)

/-- One pass of the loop over the attributes of a start tag. -/
def tagPass (seen : List Attribute) (i : Nat) :
    Except ScanFault (Option (TagBody × Nat) ⊕ List Attribute × Nat) := do
  let i ← skipBlanks text i
  if size text ≤ i then return .inl none
  else
    let b ← byteAt text i
    if b == byteOf '>' then return .inl (some (⟨seen.reverse, false⟩, i + 1))
    else if b == byteOf '/' then
      if (byte? text (i + 1)).any (· == byteOf '>') then
        return .inl (some (⟨seen.reverse, true⟩, i + 1 + 1))
      else return .inr (seen, i + 1)
    else attributePass text seen i

/-- The name of the element whose tag goes on at an offset, and the offset behind the name. -/
def nameAt (i : Nat) : Except ScanFault (String × Nat) := do
  let stop ← scanWhile text isNameByte i
  let name ← slice text i stop
  return (String.ofList (lowerChars name), stop)

/-- Reads a start tag. -/
def startTagAt (i : Nat) : Except ScanFault (Option ((String × TagBody) × Nat)) := do
  let (name, stop) ← nameAt text (i + 1)
  match ← advance text (tagPass text) [] stop with
  | none => return none
  | some (body, next) => return some ((name, body), next)

/-- Reads an end tag. -/
def endTagAt (i : Nat) : Except ScanFault (String × Nat) := do
  let start ← skipBlanks text (i + 2)
  let (name, stop) ← nameAt text start
  match ← find text (encode ">".toList) stop with
  | some k => return (name, k + 1)
  | none => return (name, size text)

/-! ## Texts -/

/-- Whether an end tag of the element `name` stands at an offset. -/
def endsRawText (name : List UInt8) (i : Nat) : Except ScanFault Bool := do
  if (← byteAt text i) != byteOf '<' then return false
  else if (← byteAt text (i + 1)) != byteOf '/' then return false
  else
    let found ← bytesBetween text (i + 2) (i + 2 + name.length)
    return found.map lowerByte == name.map lowerByte &&
      !(byte? text (i + 2 + name.length)).any isAlnumByte

/-- Whether a tag, a comment or a declaration opens at an offset. -/
def startsMarkup (i : Nat) : Except ScanFault Bool := do
  return (← byteAt text i) == byteOf '<' && (byte? text (i + 1)).any opensMarkupByte

/-! ## Nodes -/

def commentPass (b : Builder) (i : Nat) : Except ScanFault (Builder ⊕ Builder × Nat) := do
  match ← find text (encode "-->".toList) (i + 4) with
  | some stop =>
    return .inr (b.addNode (.comment (String.ofList (← slice text (i + 4) stop))), stop + 3)
  | none =>
    return .inr (b.addNode (.comment (String.ofList (← slice text (i + 4) (size text)))), size text)

def endTagPass (b : Builder) (i : Nat) : Except ScanFault (Builder ⊕ Builder × Nat) := do
  let (name, next) ← endTagAt text i
  return .inr (b.close name, next)

def declarationPass (b : Builder) (i : Nat) : Except ScanFault (Builder ⊕ Builder × Nat) := do
  let found ← find text (encode ">".toList) i
  let stop := found.elim (size text) (· + 1)
  let declaration ← slice text i stop
  if b.doctype.isNone && startsIgnoringCase (encode "<!doctype".toList) (encode declaration) then
    return .inr ({ b with doctype := some (← doctypeAt declaration) }, stop)
  else return .inr (b, stop)

/-- A raw text goes up to its end tag. -/
def rawTextPass (b : Builder) (name : String) (attributes : List Attribute) (start : Nat) :
    Except ScanFault (Builder ⊕ Builder × Nat) := do
  let tag := encode name.toList
  let found ← seek text (tag.length + 1) (endsRawText text tag) start
  let close := found.getD (size text)
  let content ← slice text start close
  let b := b.addNode (.element name attributes (textChildren (String.ofList content)))
  if close < size text then return .inr (b, (← endTagAt text close).2)
  else return .inr (b, close)

/-- Without an end of the tag everything is text, and the loop ends. -/
def startTagPass (b : Builder) (i : Nat) : Except ScanFault (Builder ⊕ Builder × Nat) := do
  match ← startTagAt text i with
  | none => return .inl (b.addText (← slice text i (size text)))
  | some ((name, body), next) =>
    let b := if name == "body" then b.close "head" else b
    let closesItself := isVoid name || (body.selfClosing && (isForeign name || b.inForeign))
    if isRawText name && !closesItself then rawTextPass text b name body.attributes next
    else if closesItself then return .inr (b.addNode (.element name body.attributes []), next)
    else return .inr (b.openElement name body.attributes, next)

def textPass (b : Builder) (i : Nat) : Except ScanFault (Builder ⊕ Builder × Nat) := do
  let found ← seek text 0 (startsMarkup text) (i + 1)
  let stop := found.getD (max (i + 1) (size text))
  return .inr (b.addText (← slice text i stop), stop)

/-- One pass of the loop over a page. -/
def nodePass (b : Builder) (i : Nat) : Except ScanFault (Builder ⊕ Builder × Nat) := do
  if size text ≤ i then return .inl b
  else if hasBytesAt text i (encode "<!--".toList) then commentPass text b i
  else if hasBytesAt text i (encode "</".toList) &&
      (byte? text (i + 2)).any isLetterByte then endTagPass text b i
  else
    let first ← byteAt text i
    if first == byteOf '<' &&
        (byte? text (i + 1)).any (fun d => d == byteOf '!' || d == byteOf '?') then
      declarationPass text b i
    else if first == byteOf '<' && (byte? text (i + 1)).any isLetterByte then
      startTagPass text b i
    else textPass text b i

end Readers

/-- The document type and the top-level nodes of a page. -/
def readNodes (html : String) : Except ScanFault (Option Doctype × List Node) := do
  let b ← advance html.toList (nodePass html.toList) {} 0
  return (b.doctype, b.finish)

/-- Reads a page as a whole. -/
def readDocument (html : String) : Except ScanFault Document := do
  let (doctype, nodes) ← readNodes html
  return ⟨doctype, normalize nodes⟩

/-- Where the loop over a page comes by: what has been built there, and the cursor. -/
inductive Visits (text : List Char) : Builder → Nat → Prop where
  | start : Visits text {} 0
  | pass {b b' : Builder} {i j : Nat} (h : Visits text b i)
      (hPass : nodePass text b i = .ok (.inr (b', j))) : Visits text b' j

end PagePreview.Markup
