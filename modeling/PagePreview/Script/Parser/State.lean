import PagePreview.Script.Token

/-!
# Readers of scripts

A `Parser` takes nodes from a row of tokens. Its state holds the current
token together with the lexer in front of it and the one behind it, so a
token can be read again as something else, and going back to an earlier state
costs nothing.

There are two kinds of faults. `failure` ends the reading, or the attempt that
`attempt` makes; `complain` lets it go on, and the script is refused at the
end. An attempt that only complains has succeeded.

The reading of a nested construct goes through a `Rules`, a parser for every
`Rule`. What a rule means is said by functions that are not recursive and take
a `Rules` for the parts; the knot is tied in one place.
-/

namespace PagePreview.Script

/-- What is allowed at some place of a script. -/
structure Context where
  /-- Whether `in` is an operator. -/
  isIn : Bool := true
  /-- Whether `yield` is an operator. -/
  yields : Bool := false
  /-- Whether `await` is an operator. -/
  awaits : Bool := true
  returns : Bool := false
  /-- Whether only declarations are described here. -/
  ambient : Bool := false
  /-- Whether the expression of a decorator is read. -/
  decorator : Bool := false
  /-- Whether a type may go on with `extends`. -/
  conditionalType : Bool := true
deriving DecidableEq, Repr

/-- What is wrong at some place of a script. -/
inductive Defect where
  /-- Another token should stand there, one of some, because of a construct. -/
  | expected (wanted : List String) (construct : String)
  /-- No token like this can stand there. -/
  | unexpected (reason : String)
  /-- What has been read is well formed and yet not allowed. -/
  | illegal (reason : String)
deriving DecidableEq, Repr

/-- Where a script is refused, and why. -/
structure Refusal where
  lexeme : Lexeme
  place : Nat
  defect : Defect := .unexpected "primary expression"
deriving DecidableEq, Repr

structure State where
  /-- The place in front of the current token. -/
  before : Lexer
  token : Token
  /-- The place behind the current token. -/
  after : Lexer
  /-- Where the token before ended. -/
  lastStop : Nat := 0
  context : Context := {}
  /-- Whether types and markup may occur. -/
  extended : Bool := true
  /-- What was wrong first, if something was. -/
  complaint : Option Refusal := none
  /-- Where no function in arrow form begins. -/
  notArrow : List Nat := []
  /-- More than the number of tokens that are left. -/
  limit : Nat

abbrev Parser := StateT State (Except Refusal)

namespace Parser

/-- Fails at the current token, unless there was a complaint before, which goes first. -/
def refuse {α : Type} (defect : Defect) : Parser α := fun s =>
  .error (s.complaint.getD ⟨s.token.lexeme, s.token.start, defect⟩)

def failure {α : Type} : Parser α := refuse (.unexpected "primary expression")

/-- Fails because one of some tokens is missing in a construct. -/
def missing {α : Type} (wanted : List String) (construct : String) : Parser α :=
  refuse (.expected wanted construct)

/-- Complains about a place. -/
def complainAt (place : Nat) (defect : Defect) : Parser Unit := modify fun s =>
  { s with complaint := s.complaint.or (some ⟨s.token.lexeme, place, defect⟩) }

/-- Complains about the current token. -/
def complainOf (defect : Defect) : Parser Unit := fun s => complainAt s.token.start defect s

def complain : Parser Unit := complainOf (.unexpected "primary expression")

def token : Parser Token := return (← get).token

def lexeme : Parser Lexeme := return (← get).token.lexeme

def start : Parser Nat := return (← get).token.start

def onNewLine : Parser Bool := return (← get).token.onNewLine

/-- Goes on to the next token. -/
def advance : Parser Unit := modify fun s =>
  let (token, after) := s.after.next
  { s with before := s.after, token, after, lastStop := s.token.stop }

/-- Reads the current token in another way. -/
def reread (read : Lexer → Token × Lexer) : Parser Unit := modify fun s =>
  let (token, after) := read s.before
  { s with token, after }

/-- Goes on to the next token, which is read in a way of its own. -/
def advanceWith (read : Lexer → Token × Lexer) : Parser Unit := modify fun s =>
  let (token, after) := read s.after
  { s with before := s.after, token, after, lastStop := s.token.stop }

/-- What `p` gives, without going anywhere. -/
def look {α : Type} (p : Parser α) : Parser (Option α) := fun s =>
  .ok ((p s).toOption.map (·.1), s)

/-- Whether `p` succeeds with `true`, without going anywhere. -/
def looking (p : Parser Bool) : Parser Bool := return (← look p).getD false

/-- What `p` gives, or nothing and the place in front of it. -/
def attempt {α : Type} (p : Parser α) : Parser (Option α) := fun s =>
  match p s with
  | .ok (a, s') => .ok (some a, s')
  | .error _ => .ok (none, s)

/-- The token behind the current one. -/
def following : Parser Token := return (← get).after.next.1

/-- Reads with another context. -/
def within {α : Type} (change : Context → Context) (p : Parser α) : Parser α := do
  let outer := (← get).context
  modify fun s => { s with context := change outer }
  let a ← p
  modify fun s => { s with context := outer }
  return a

def context : Parser Context := return (← get).context

/-! ## Marks and words -/

def isMark (m : String) : Parser Bool := return (← lexeme) == .mark m

def isWord (w : String) : Parser Bool := return (← lexeme) == .word w false

def isAnyMark (ms : List String) : Parser Bool := do
  match ← lexeme with
  | .mark m => return ms.contains m
  | _ => return false

def eatMark (m : String) : Parser Bool := do
  if ← isMark m then advance; return true else return false

def eatWord (w : String) : Parser Bool := do
  if ← isWord w then advance; return true else return false

def expectMark (m : String) : Parser Unit := do
  if !(← eatMark m) then failure

def expectWord (w : String) : Parser Unit := do
  if !(← eatWord w) then failure

/-- Asks for a mark that a construct cannot do without. -/
def demandMark (construct m : String) : Parser Unit := do
  if !(← eatMark m) then missing [m] construct

/-- Asks for a word that a construct cannot do without. -/
def demandWord (construct w : String) : Parser Unit := do
  if !(← eatWord w) then missing [w] construct

def followedByMark (m : String) : Parser Bool := return (← following).lexeme == .mark m

/-- Whether the end of a statement may be left out here. -/
def endsLine : Parser Bool :=
  return (← isMark "\x7d") || (← lexeme) == .finish || (← onNewLine)

/-- Ends a statement of some kind: with a semicolon, or where one may be left out. -/
def semicolonIn (construct : String) : Parser Unit := do
  if !(← eatMark ";") then
    if !(← endsLine) then missing [";"] construct

def semicolon : Parser Unit := semicolonIn "expression statement"

/-! ## Nodes -/

/-- The node that began at some place and ends with the token before the current one. -/
def node (start : Nat) (kind : Kind) (children : List Node := []) : Parser Node :=
  return .mk kind ⟨start, (← get).lastStop⟩ children

/-- What `p` gives for `true`, and an absent node otherwise. -/
def optional (condition : Bool) (p : Parser Node) : Parser Node :=
  if condition then p else return .absent

/-! ## Repetition -/

def repeatWithin (step : Parser (Option Node)) : Nat → Parser (List Node)
  | 0 => failure
  | n + 1 => do
    match ← step with
    | none => return []
    | some a => return a :: (← repeatWithin step n)

/-- What `step` gives until it gives nothing. It has to take a token each time. -/
def repeated (step : Parser (Option Node)) : Parser (List Node) := do
  repeatWithin step (← get).limit

def iterateWithin {α : Type} (step : α → Parser (Option α)) : Nat → α → Parser α
  | 0, _ => failure
  | n + 1, a => do
    match ← step a with
    | none => return a
    | some a' => iterateWithin step n a'

/-- Goes on from `a` until `step` gives nothing. It has to take a token each time. -/
def iterate {α : Type} (step : α → Parser (Option α)) (a : α) : Parser α := do
  iterateWithin step (← get).limit a

/-- Items with commas between them up to a closing mark, which is left, and whether a comma stands
behind the last one. -/
def separatedBy (close : String) (item : Parser Node) : Parser (List Node × Bool) := do
  let (more, items) ← iterate (fun ((more, items) : Bool × List Node) => do
    if !more || (← isMark close) then return none
    let a ← item
    return some (← eatMark ",", a :: items)) (true, [])
  return (items.reverse, more)

/-- Items with commas between them up to a closing mark, which is left. A comma may stand behind
the last one. -/
def separated (close : String) (item : Parser Node) : Parser (List Node) :=
  return (← separatedBy close item).1

/-- A group of items in brackets, as a part of a construct. What should stand in the place of
another token behind an item is `wanted`. -/
def bracketedIn (construct : String) (wanted : List String) (openMark close : String)
    (item : Parser Node) : Parser Node := do
  let place ← start
  demandMark construct openMark
  let items ← separated close item
  if !(← eatMark close) then missing wanted construct
  node place .group items

/-- A group of items in brackets. -/
def bracketed (openMark close : String) (item : Parser Node) : Parser Node :=
  bracketedIn "list" [",", close] openMark close item

end Parser

/-! ## Rules -/

/-- The constructs that occur within each other. -/
inductive Rule where
  | statement
  /-- An expression without a comma. A function in arrow form may name its result type unless a
  colon has to follow it. -/
  | assignment (resultType : Bool)
  /-- An expression of operators that bind more tightly than a level. -/
  | binary (above : Level)
  | unary
  /-- What can stand behind `new`: no calls. -/
  | callee
  /-- Members, calls and what they begin with. -/
  | leftHand
  /-- A pattern without a type or default. -/
  | pattern
  | type
  | typeOperand
  /-- Markup, on its own or as a child. -/
  | element (asChild : Bool)
deriving DecidableEq, Repr

abbrev Rules := Rule → Parser Node

end PagePreview.Script
