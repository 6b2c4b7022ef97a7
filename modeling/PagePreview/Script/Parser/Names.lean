import PagePreview.Script.Parser.State

/-!
# Names and keys

Most words are keywords in some places only. Those that never are names are
listed here.
-/

namespace PagePreview.Script.Parser

/-- The words that are never identifiers. -/
def reservedWords : List String :=
  ["break", "case", "catch", "class", "const", "continue", "debugger", "default", "delete", "do",
    "else", "enum", "export", "extends", "false", "finally", "for", "function", "if", "import",
    "in", "instanceof", "new", "null", "return", "super", "switch", "this", "throw", "true",
    "try", "typeof", "var", "void", "while", "with"]

/-- Whether a lexeme can be an identifier, at least in some contexts. -/
def isIdentifier : Lexeme → Bool
  | .word w _ => !reservedWords.contains w
  | _ => false

/-- Whether the current token can be an identifier that is used as an expression. -/
def isReference : Parser Bool := do
  match ← lexeme with
  | .word w _ =>
    let c ← context
    return !reservedWords.contains w && !(w == "yield" && c.yields) && !(w == "await" && c.awaits)
  | _ => return false

/-- An identifier, where one is bound. -/
def identifier : Parser Node := do
  let place ← start
  match ← lexeme with
  | .word w _ =>
    if reservedWords.contains w then missing ["identifier"] "identifier parsing"
    let c ← context
    if (w == "yield" && c.yields) || (w == "await" && c.awaits) then complain
    advance
    node place (.name w)
  | _ => missing ["identifier"] "identifier parsing"

/-- Any word. -/
def anyName : Parser Node := do
  let place ← start
  match ← lexeme with
  | .word w _ => advance; node place (.name w)
  | _ => missing ["identifier"] "member expression"

def stringLiteral : Parser Node := do
  let place ← start
  match ← lexeme with
  | .string s lossy => advance; node place (.string s lossy)
  | _ => failure

/-- Whether the current token is a word. -/
def isAnyName : Lexeme → Bool
  | .word _ _ => true
  | _ => false

/-- The name of something that is imported or exported: a word or a text. -/
def moduleName : Parser Node := do
  match ← lexeme with
  | .string _ lossy =>
    if lossy then complain
    stringLiteral
  | _ => anyName

/-- Whether a lexeme can begin the key of a member. -/
def startsKey : Lexeme → Bool
  | .word _ _ | .string _ _ | .number _ | .bigint _ | .privateName _ => true
  | .mark m => m == "["
  | _ => false

/-- The key of a property, and whether it is computed. -/
def key (rules : Rules) : Parser (Node × Bool) := do
  let place ← start
  match ← lexeme with
  | .word w _ => advance; return (← node place (.name w), false)
  | .string s lossy => advance; return (← node place (.string s lossy), false)
  | .number t => advance; return (← node place (.number t), false)
  | .bigint t => advance; return (← node place (.bigint t), false)
  | .mark "[" =>
    advance
    let e ← within (fun c => { c with isIn := true }) (rules (.assignment true))
    expectMark "]"
    return (e, true)
  | _ => failure

/-- The key of a member of a class, which may be private, and whether it is computed. -/
def memberKey (rules : Rules) : Parser (Node × Bool) := do
  let place ← start
  match ← lexeme with
  | .privateName w => advance; return (← node place (.privateName w), false)
  | _ => key rules

end PagePreview.Script.Parser
