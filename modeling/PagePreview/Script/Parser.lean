import PagePreview.Script.Parser.Modules

/-!
# Reading scripts

`Script.parse?` reads a whole script, or nothing. The rules are tied together
in `Parser.step`; every use of a rule within a rule takes one unit of fuel.
Each construct that contains another one begins with a token of its own after
at most four rules, so the fuel that `parse?` starts with is never used up.
-/

namespace PagePreview.Script

namespace Parser

/-- Notes that calls of the function that a statement declares have no effects. Of variables, only
the first constant counts. -/
def markDeclared : Node → Node
  | .mk (.function r .declaration d) s cs => markEffectFree (.mk (.function r .declaration d) s cs)
  | .mk (.variables .const d) s (.mk .declarator t [p, v] :: vs) =>
    .mk (.variables .const d) s (.mk .declarator t [p, markEffectFree v] :: vs)
  | .mk .exportDeclaration s [d] => .mk .exportDeclaration s [markDeclared d]
  | .mk .exportDefault s [d] => .mk .exportDefault s [markEffectFree d]
  | n => n

/-- A statement without what a comment in front of it says about effects. -/
def plainStatement (rules : Rules) : Parser Node := do
  let place ← start
  let t ← following
  let declarationOr (p : Parser Node) : Parser Node := do
    match ← declaration? rules place .absent with
    | some d => return d
    | none => p
  match ← lexeme with
  | .mark "\x7b" => block rules
  | .mark ";" => advance; node place .empty
  | .mark "@" =>
    let ds ← decorators rules
    if ← isWord "export" then exportStatement rules place ds
    else
      match ← declaration? rules place ds with
      | some d => return d
      | none => failure
  | .word w false =>
    match w with
    | "if" => ifStatement rules
    | "for" => forStatement rules
    | "while" => whileStatement rules
    | "do" => doStatement rules
    | "continue" => jump "continue statement" .continueLoop
    | "break" => jump "break statement" .breakOut
    | "return" => returnStatement rules
    | "with" => withStatement rules
    | "switch" => switchStatement rules
    | "throw" => throwStatement rules
    | "try" => tryStatement rules
    | "debugger" => advance; semicolon; node place .debugger
    | "import" =>
      if t.lexeme == .mark "." || t.lexeme == .mark "(" then expressionStatement rules
      else
        advance
        importFrom place
    | "export" => exportStatement rules place .absent
    | "let" =>
      if (← get).extended then letStatement rules false
      else declarationOr (expressionStatement rules)
    | _ => declarationOr (expressionStatement rules)
  | _ => expressionStatement rules

def statement (rules : Rules) : Parser Node := do
  let t ← token
  let n ← plainStatement rules
  return if t.isEffectFree then markDeclared n else n

def step (rules : Rules) : Rules
  | .statement => statement rules
  | .assignment resultType => assignment rules resultType
  | .binary above => binary rules above
  | .unary => unary rules
  | .callee => callee rules
  | .leftHand => leftHand rules
  | .pattern => pattern rules
  | .type => type rules
  | .typeOperand => typeOperand rules
  | .element asChild => element rules asChild

def rulesWithin : (fuel : Nat) → Rule → Parser Node
  | 0, _ => failure
  | fuel + 1, r => step (rulesWithin fuel) r

/-- The statements of a script, up to its end. -/
def program (rules : Rules) (hashbang : Option String) : Parser Node := do
  let ns ← statements rules
  let t ← token
  if t.lexeme != .finish then failure
  return .mk (.program hashbang) ⟨0, t.start⟩ ns

/-- Whether a property of an object has a default, which only one of a pattern can have. -/
def isUnfinished (n : Node) : Bool :=
  match n with
  | .mk (.property .value _ true) _ [_, .mk .withDefault _ _] => true
  | _ => false

/-- The first line, if it names an interpreter. -/
def hashbang? (cs : List Char) : Option (List Char) :=
  if startsWith ['#', '!'] cs then some (cs.takeWhile (!isLineEnd ·)) else none
where
  startsWith := Text.startsWith
  isLineEnd := Literal.isLineEnd

/-- The state in front of a text. -/
def initial (context : Context) (extended : Bool) (cs : List Char) : State :=
  let cursor : Cursor := (⟨cs, 0⟩ : Cursor).skip ((hashbang? cs).elim 0 List.length)
  let before : Lexer := ⟨cursor, {}⟩
  let (token, after) := before.next
  { before, token, after, context, extended, limit := cs.length + 2 }

end Parser

open Script.Parser

/-- Reads a script where a context allows it, with or without types and markup. -/
def parseIn (context : Context) (extended : Bool) (source : String) : Except Refusal Program := do
  let cs := source.toList
  let (p, s) ← program (rulesWithin (4 * cs.length + 16)) ((hashbang? cs).map String.ofList)
    (initial context extended cs)
  match s.complaint with
  | some r => .error r
  | none =>
    if p.any isUnfinished then .error { lexeme := s.token.lexeme, place := s.token.start }
    else .ok ⟨p, s.after.notes.done.reverse⟩

/-- Reads a script, or nothing. -/
def parse? (extended : Bool) (source : String) : Option Program :=
  (parseIn {} extended source).toOption

end PagePreview.Script
