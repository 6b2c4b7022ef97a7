import PagePreview.Engine.Legality
import PagePreview.Engine.Run
import PagePreview.Decimal.Notation
import PagePreview.Script.Numeral
import PagePreview.Script.Parser

/-!
# Reading scripts to be run

Scripts that run have neither types nor markup. What is wrong with one is told
with the line and the column where it is noticed, both from one on.
-/

namespace PagePreview.Engine

open Script

/-- A script in the form in which it runs. -/
structure Piece where
  statements : List Node
  source : Source
  strict : Bool

/-- A token in an error text. -/
def tokenText : Lexeme → String
  | .word w _ => w
  | .privateName w => "#" ++ w
  | .mark m => m
  | .number t => String.ofList (Decimal.Notation.plain.render (Numeral.value t))
  | .bigint t => t ++ "n"
  | .string s _ => s
  | .pattern body flags => "/" ++ body ++ "/" ++ flags
  | .chunk raw _ _ => raw
  | .markupText t => t
  | .finish => ""
  | .fault => ""

/-! ## Places -/

/-- The line and the column of a place. -/
def lineAndColumn (source : Source) (offset : Nat) : Nat × Nat :=
  (source.take offset).foldl
    (fun (line, column) c => if c == '\n' then (line + 1, 1) else (line, column + 1)) (1, 1)

/-- A line and a column in an error text. -/
def lineText (source : Source) (offset : Nat) (column : String) : String :=
  let (l, c) := lineAndColumn source offset
  " at line " ++ String.ofList (Decimal.natDigits l) ++
    ", " ++ column ++ " " ++ String.ofList (Decimal.natDigits c)

/-- A place in an error text. -/
def placeText (source : Source) (offset : Nat) : String := lineText source offset "col"

/-! ## Refusals -/

/-- Why what is written at a place is no token. -/
def faultText (source : Source) (offset : Nat) : String :=
  let told (text : String) (place : Nat) := text ++ placeText source place
  match source.drop offset with
  | [] => "abrupt end"
  | c :: rest =>
    if c == '"' || c == '\'' then
      if (Literal.breakOff? c rest).isSome then
        told "malformed Unicode character escape sequence" offset
      else "unterminated string literal"
    else if c == '`' || c == '\x7d' then "unterminated template literal"
    else if c == '/' then
      if rest.head? == some '*' then told "unterminated multiline comment" offset
      else
        match Literal.breakOffPattern? false rest with
        | some (raw, _) =>
          told "invalid regular expression flags" (offset + raw.length + 2)
        | none =>
          let line := rest.takeWhile (!Literal.isLineEnd ·)
          told (if line.length < rest.length then
            "new lines are not allowed in regular expressions"
            else "abrupt end on regular expression") (offset + 1 + line.length)
    else if c.isDigit || c == '.' then
      told "a numeric literal must not be followed by an alphanumeric, $ or _ characters"
        (offset + ((numberText? (c :: rest)).elim 1 List.length))
    else if c == '#' then told "Abrupt end: Expecting private identifier" offset
    else
      let mark := "unexpected '" ++ c.toString ++ "'"
      told (mark ++ lineText source offset "column") offset

/-- What should have stood at a place. -/
def wantedText : List String → String
  | [] => "nothing"
  | [mark] => "token '" ++ mark ++ "'"
  | marks =>
    let quoted := marks.map fun m => "'" ++ m ++ "'"
    "one of " ++ String.intercalate ", " quoted.dropLast ++ " or " ++ quoted.getLastD ""

/-- Why a script is refused. -/
def refusalText (source : Source) (r : Refusal) : String :=
  let place := placeText source r.place
  let token := tokenText r.lexeme
  match r.defect, r.lexeme with
  | .illegal reason, _ => reason ++ place
  | _, .finish => "abrupt end"
  | _, .fault => faultText source r.place
  | _, .mark "@" => faultText source r.place
  | .expected wanted construct, _ =>
    "expected " ++ wantedText wanted ++ ", got '" ++ token ++ "' in " ++ construct ++ place
  | .unexpected reason, _ => "unexpected token '" ++ token ++ "', " ++ reason ++ place

/-- Whether a statement belongs to modules only. -/
def isModuleStatement (n : Node) : Bool :=
  match n.kind with
  | .importFrom .. | .exportNamed _ | .exportDeclaration | .exportDefault | .exportAll _ => true
  | _ => false

/-- Why a script that is no module cannot have a statement. -/
def moduleStatementText (source : Source) (n : Node) : String :=
  match n.kind with
  | .importFrom .. =>
    let behind := n.span.start + "import".length
    let t := (Parser.initial {} false (source.drop behind)).token
    "expected token '.', got '" ++ tokenText t.lexeme ++ "' in import.meta" ++
      placeText source (behind + t.start)
  | _ => "unexpected token 'export', primary expression" ++ placeText source n.span.start

/-- Reads what is to be run. -/
def readPiece (isModule strict : Bool) (text : String) : Run Piece := do
  let source := text.toList
  match parseIn { awaits := isModule } false text with
  | .error r => syntaxError (refusalText source r)
  | .ok p =>
    let statements := p.root.children
    match isModule, statements.find? isModuleStatement with
    | false, some n => syntaxError (moduleStatementText source n)
    | _, _ =>
      let strict := isModule || strict || isStrict statements
      match offence? strict statements with
      | some (reason, offset) => syntaxError (reason ++ placeText source offset)
      | none => return { statements, source, strict }

/-- Reads a script or a module that stands on its own. -/
def readText (isModule : Bool) (text : String) : Run Piece := do
  let piece ← readPiece isModule false text
  match outerFault? isModule piece.statements with
  | some reason => syntaxError (reason ++ placeText piece.source 0)
  | none => return piece

end PagePreview.Engine
