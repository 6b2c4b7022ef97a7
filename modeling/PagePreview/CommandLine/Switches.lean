import PagePreview.Text.Search

/-!
# Switches and operands

The words of a command are switches and operands. A switch begins with a
hyphen; some take a value, which follows an equals sign or is the next word.
Switches of one letter may be joined, and their value may follow directly.
After a word of two hyphens there are only operands. No switch may be given
twice.
-/

namespace PagePreview.CommandLine

open Text

/-- A switch that a command knows. -/
structure Switch where
  name : String
  letter : Option Char := none
  takesValue : Bool := true
deriving DecidableEq, Repr

/-- What has been found in the words of a command. -/
structure Words where
  /-- The switches that were given, with their values. -/
  given : List (String × Option String) := []
  operands : List String := []
deriving DecidableEq, Repr

/-- Why words cannot be used, or need not be read further. -/
inductive Stop where
  /-- They do not fit the command. -/
  | misuse
  | help
  | version
deriving DecidableEq, Repr

namespace Words

def has (w : Words) (name : String) : Bool := w.given.any (·.1 == name)

def value? (w : Words) (name : String) : Option String := (w.given.lookup name).join

/-- Notes a switch, unless it has been given before. -/
def give (w : Words) (name : String) (value : Option String) : Except Stop Words :=
  if w.has name then .error .misuse else .ok { w with given := w.given ++ [(name, value)] }

end Words

/-- A word that is a switch: two hyphens and more, or one hyphen and a letter. -/
inductive Word where
  /-- There are only operands behind it. -/
  | divider
  | long (name : String) (value : Option String)
  | letters (cs : List Char)
  | operand (text : String)

def Word.of (text : String) : Word :=
  match text.toList with
  | ['-', '-'] => .divider
  | '-' :: '-' :: cs =>
    let (name, rest) := cs.span (· != '=')
    .long (String.ofList name) (rest.tail?.map String.ofList)
  | '-' :: c :: cs => .letters (c :: cs)
  | _ => .operand text

/-- What joined letters ask for: switches without a value, and one at the end that has a value or
waits for one. -/
def readLetters (known : List Switch) (w : Words) :
    List Char → Except Stop (Words × Option String)
  | [] => .ok (w, none)
  | c :: cs =>
    match known.find? (·.letter == some c) with
    | some s =>
      if !s.takesValue then do readLetters known (← w.give s.name none) cs
      else if cs.isEmpty then .ok (w, some s.name)
      else do
        let value := (dropFront? ['='] cs).getD cs
        .ok (← w.give s.name (some (String.ofList value)), none)
    | none => .error (if c == 'h' then .help else .misuse)

/-- Reads the words of a command; `waiting` is the switch whose value comes next. -/
def readWords (known : List Switch) (w : Words) :
    (waiting : Option String) → List String → Except Stop Words
  | none, [] => .ok w
  | some _, [] => .error .misuse
  | waiting, text :: rest =>
    match Word.of text, waiting with
    | .operand value, some name => do readWords known (← w.give name (some value)) none rest
    | _, some _ => .error .misuse
    | .operand text, none => readWords known { w with operands := w.operands ++ [text] } none rest
    | .divider, none => .ok { w with operands := w.operands ++ rest }
    | .letters cs, none => do
      let (w, waiting) ← readLetters known w cs
      readWords known w waiting rest
    | .long name value, none =>
      match known.find? (·.name == name), value with
      | none, none => .error (if name == "help" then .help else .misuse)
      | none, some _ => .error .misuse
      | some s, some v => do
        if s.takesValue then readWords known (← w.give name (some v)) none rest
        else .error .misuse
      | some s, none => do
        if s.takesValue then
          if w.has name then .error .misuse else readWords known w (some name) rest
        else readWords known (← w.give name none) none rest

end PagePreview.CommandLine
