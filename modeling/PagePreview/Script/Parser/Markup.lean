import PagePreview.Script.Parser.Expressions

/-!
# Markup in scripts

Between its tags markup is text, so the token behind a tag is read in one way
if the tag ends a child, and in another if an expression goes on behind it.
Every function that takes the closing angle of a tag therefore says which.
-/

namespace PagePreview.Script.Parser

/-- Takes the closing angle of a tag. -/
def closeTag (asChild : Bool) : Parser Unit := do
  if !(← isMark ">") then failure
  if asChild then advanceWith Lexer.readMarkup else advance

/-- A name without points. -/
def markupName : Parser Node := do
  reread Lexer.readMarkupName
  let place ← start
  match ← lexeme with
  | .word w _ =>
    advance
    if ← isMark ":" then
      advanceWith Lexer.readMarkupName
      match ← lexeme with
      | .word local_ _ => advance; node place (.scopedName w local_)
      | _ => failure
    else node place (.tagName w)
  | _ => failure

/-- The name of an element. -/
def elementName : Parser Node := do
  let place ← start
  let first ← markupName
  match first.kind with
  | .scopedName _ _ => return first
  | _ =>
    iterate (fun n => do
      if ← isMark "." then
        advanceWith Lexer.readMarkupName
        let part ← start
        match ← lexeme with
        | .word w _ =>
          if w.toList.contains '-' then failure
          advance
          let name ← node part (.tagName w)
          return some (← node place .tagPath [n, name])
        | _ => failure
      else return none) first

/-- The text of an element's name. -/
def tagText : Node → String
  | .mk (.tagName s) _ _ => s
  | .mk (.scopedName s t) _ _ => s ++ ":" ++ t
  | .mk .tagPath _ [a, b] => tagText a ++ "." ++ tagText b
  | _ => ""

/-- The value of an attribute, from the token behind the equals sign on. -/
def attributeValue (rules : Rules) : Parser Node := do
  let place ← start
  match ← lexeme with
  | .markupText s => advance; node place (.markupString s)
  | .mark "\x7b" =>
    advance
    let e ← do
      if ← isMark "\x7d" then
        let stop ← start
        pure (Node.mk .nothing ⟨place + 1, stop⟩ [])
      else plainExpression rules
    expectMark "\x7d"
    node place .container [e]
  | .mark "<" => rules (.element false)
  | _ => failure

def markupAttribute (rules : Rules) : Parser Node := do
  let place ← start
  if ← eatMark "\x7b" then
    expectMark "..."
    let e ← plainExpression rules
    expectMark "\x7d"
    node place .attributeSpread [e]
  else
    let name ← markupName
    if ← isMark "=" then
      advanceWith Lexer.readMarkupString
      let v ← attributeValue rules
      node place .markupAttribute [name, v]
    else node place .markupAttribute [name, .absent]

/-- What stands in braces between tags, up to the brace, and the text behind it. -/
def markupContainer (rules : Rules) : Parser Node := do
  let place ← start
  advance
  let close (stop : Nat) (kind : Kind) (e : Node) : Parser Node := do
    if !(← isMark "\x7d") then failure
    advanceWith Lexer.readMarkup
    return .mk kind ⟨place, stop + 1⟩ [e]
  if ← isMark "\x7d" then
    let stop ← start
    close stop .container (.mk .nothing ⟨place + 1, stop⟩ [])
  else if ← eatMark "..." then
    let e ← plainExpression rules
    close (← start) .childSpread e
  else
    let e ← plainExpression rules
    close (← start) .container e

/-- The children of an element up to its closing tag, which is left. -/
def markupChildren (rules : Rules) : Parser (List Node) :=
  repeated do
    let place ← start
    match ← lexeme with
    | .markupText s =>
      advanceWith Lexer.readMarkup
      return some (← node place (.markupText s))
    | .mark "\x7b" => return some (← markupContainer rules)
    | .mark "<" =>
      if ← followedByMark "/" then return none
      return some (← rules (.element true))
    | _ => failure

/-- An element or fragment, from its opening angle on. -/
def element (rules : Rules) (asChild : Bool) : Parser Node := do
  let place ← start
  expectMark "<"
  if ← isMark ">" then
    advanceWith Lexer.readMarkup
    let children ← markupChildren rules
    advance
    expectMark "/"
    closeTag asChild
    node place .fragment children
  else
    let name ← elementName
    let arguments ← typeArguments rules
    let attributes ← repeated do
      if (← isMark "/") || (← isMark ">") then return none
      return some (← markupAttribute rules)
    if ← eatMark "/" then
      closeTag asChild
      node place (.element true) [name, arguments, .group attributes, .group []]
    else
      if !(← isMark ">") then failure
      advanceWith Lexer.readMarkup
      let children ← markupChildren rules
      advance
      expectMark "/"
      let closing ← elementName
      if tagText name != tagText closing then failure
      closeTag asChild
      node place (.element false) [name, arguments, .group attributes, .group children]

end PagePreview.Script.Parser
