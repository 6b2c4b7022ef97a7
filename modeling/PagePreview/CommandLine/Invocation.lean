import PagePreview.CommandLine.Switches
import PagePreview.Settings.Layer

/-!
# Invocations

The first word behind the name of the program names a command. The word may be
left out for the command that prepares a page, and for the console if there
are no words at all. `Invocation.read` says what the words ask for.
-/

namespace PagePreview.CommandLine

open Text

/-- What the program says of itself. -/
def versionText : String := "livepad 0.1.0"

/-- What is to be done. -/
inductive Command where
  /-- Prepares a page for running and writes it to a file or to the output. -/
  | preparePage (file : String) (output : Option String)
  /-- Prepares a page for running and puts it into a directory. -/
  | exportPage (file directory : String)
  /-- Prints the scripts of pages anew, or only says which ones would change. -/
  | formatPages (check : Bool) (files : List String)
  | sharePage (file : String) (previewOnly shorten : Bool)
  | openLink (link : String)
  | servePage (file : String) (browse : Bool)
  | console
deriving DecidableEq, Repr

/-- A command, and what the command line says about the settings. -/
structure Invocation where
  command : Command
  /-- The settings file, if it is named. -/
  settingsFile : Option String := none
  layer : Settings.Layer := {}
deriving DecidableEq, Repr

def commandNames : List String :=
  ["rewrite", "export", "fmt", "share", "open", "serve", "console", "help"]

/-- Puts the name of the command that prepares a page in front of the words behind the name of
the program, unless they begin with a command or a switch. -/
def withCommand : List String → List String
  | program :: first :: rest =>
    if commandNames.contains first || first.startsWith "-" then program :: first :: rest
    else program :: "rewrite" :: first :: rest
  | words => words

/-- The switches of every command. -/
def settingsSwitches : List Switch := [
  { name := "config" },
  { name := "cdn-origin" },
  { name := "ui-package" },
  { name := "ui-global" },
  { name := "verbose", takesValue := false }]

def ownSwitches : (command : String) → List Switch
  | "rewrite" => [{ name := "output", letter := some 'o' }]
  | "export" => [{ name := "out-dir" }]
  | "fmt" => [{ name := "check", takesValue := false }]
  | "share" => [
    { name := "preview", takesValue := false }, { name := "shorten", takesValue := false },
    { name := "base-url" }]
  | "serve" => [{ name := "host" }, { name := "port" }, { name := "open", takesValue := false }]
  | _ => []

namespace Words

/-- The operand of a command that takes one. -/
def single (w : Words) : Except Stop String :=
  match w.operands with
  | [operand] => .ok operand
  | _ => .error .misuse

/-- A path is not empty. -/
def pathOf (text : String) : Except Stop String :=
  if text.isEmpty then .error .misuse else .ok text

def path? (w : Words) (name : String) : Except Stop (Option String) := (w.value? name).mapM pathOf

/-- A port is a number of 16 bits; a sign may stand in front. -/
def port (text : String) : Except Stop UInt16 :=
  match text.toList with
  | '-' :: cs =>
    if !cs.isEmpty && cs.all (· == '0') then .ok 0 else .error .misuse
  | cs => match Settings.portNumber? cs with
    | some n => .ok n
    | none => .error .misuse

/-- What the words of a command ask for. -/
def command (w : Words) : (name : String) → Except Stop Command
  | "rewrite" => do
    let file ← pathOf (← w.single)
    return .preparePage file (← w.path? "output")
  | "export" => do
    let file ← pathOf (← w.single)
    return .exportPage file ((← w.path? "out-dir").getD ".")
  | "fmt" => do
    if w.operands.isEmpty then throw .misuse
    return .formatPages (w.has "check") (← w.operands.mapM pathOf)
  | "share" => do
    return .sharePage (← pathOf (← w.single)) (w.has "preview") (w.has "shorten")
  | "open" => return .openLink (← w.single)
  | "serve" => do return .servePage (← pathOf (← w.single)) (w.has "open")
  | "console" => if w.operands.isEmpty then return .console else throw .misuse
  | _ => throw .misuse

/-- What the words say about the settings. -/
def layer (w : Words) : Except Stop Settings.Layer := do
  return {
    cdnOrigin := w.value? "cdn-origin"
    uiPackage := w.value? "ui-package"
    uiGlobal := w.value? "ui-global"
    shareBaseUrl := w.value? "base-url"
    host := w.value? "host"
    port := ← (w.value? "port").mapM port
    verbose := if w.has "verbose" then some true else none }

end Words

namespace Invocation

/-- Reads the words behind the name of a command. -/
def ofCommand (name : String) (words : List String) : Except Stop Invocation := do
  let w ← readWords (ownSwitches name ++ settingsSwitches) {} none words
  return {
    command := ← w.command name
    settingsFile := ← w.path? "config"
    layer := ← w.layer }

/-- Reads the words behind the name of the program. -/
def ofWords : List String → Except Stop Invocation
  | [] => .ok { command := .console }
  | "help" :: [] => .error .help
  | "help" :: [name] => .error (if commandNames.contains name then .help else .misuse)
  | "help" :: _ => .error .misuse
  | first :: rest =>
    match Word.of first with
    | .operand name => if commandNames.contains name then ofCommand name rest else .error .misuse
    | .divider => if rest.isEmpty then .ok { command := .console } else .error .misuse
    | .long "version" none => .error .version
    | .long "help" none => .error .help
    | .letters ('V' :: _) => .error .version
    | .letters ('h' :: _) => .error .help
    | _ => .error .misuse

/-- Reads all words, the name of the program first. -/
def read (words : List String) : Except Stop Invocation := ofWords (withCommand words).tail

end Invocation

/-! ## Usage

The text that tells what the program can be asked for. It is made from the
tables that the words are read with, so it names every switch that is known.
-/

/-- A switch as it is shown. -/
def Switch.usage (s : Switch) : String :=
  let letter := match s.letter with
    | some c => "-" ++ c.toString ++ ", "
    | none => ""
  "[" ++ letter ++ "--" ++ s.name ++ (if s.takesValue then " <VALUE>" else "") ++ "]"

/-- What a command works on. -/
def operandUsage : (command : String) → List String
  | "rewrite" | "export" | "share" | "serve" => ["<FILE>"]
  | "fmt" => ["<PATH>..."]
  | "open" => ["<LINK>"]
  | "help" => ["[COMMAND]"]
  | _ => []

/-- The line about a command. -/
def commandUsage (name : String) : String :=
  " ".intercalate ("  livepad" :: name :: (ownSwitches name).map Switch.usage ++ operandUsage name)

/-- The lines about everything. -/
def usageLines : List String :=
  ["Usage:"] ++ commandNames.map commandUsage ++
    ["Settings of every command but help:",
      "  " ++ " ".intercalate (settingsSwitches.map Switch.usage)]

end PagePreview.CommandLine
