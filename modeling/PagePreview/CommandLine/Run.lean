import PagePreview.CommandLine.Export
import PagePreview.CommandLine.Invocation
import PagePreview.CommandLine.Sharing

/-!
# Running commands

Every command finds its settings first. What it does after that is a row of
actions of the shell. The console and the preview server go on for as long as
someone uses them, so their commands only prepare them: `Next` says what is to
be run then.
-/

namespace PagePreview.CommandLine

open Page
open Script (Compiler)

/-- What is still to be run after a command. -/
inductive Next where
  | nothing
  | console (compile : Compiler)
  /-- A preview server for a page, which a browser may be launched for. -/
  | server (compile : Compiler) (file host : String) (port : UInt16) (browse : Bool)

variable {m : Type → Type} [Monad m]

/-- What a settings file says. Failures call it by `name`. -/
def Shell.settingsLayer (sh : Shell m) (name path : String) :
    ExceptT Failure m Settings.Layer := do
  match ← sh.readText path with
  | .error fault => throw (.readingSettings name fault)
  | .ok text => match Settings.Layer.ofFile text with
    | .error fault => throw (.settings name fault)
    | .ok layer => return layer

/-- What the settings file says: the one that is named, or the one with the usual name if there
is one. -/
def Shell.fileLayer (sh : Shell m) (named : Option String) :
    ExceptT Failure m (Option Settings.Layer) := do
  match named with
  | some path => return some (← sh.settingsLayer path path)
  | none =>
    if (← sh.kind? Settings.fileName).isNone then return none
    let name := Files.inside (← sh.home) Settings.fileName
    return some (← sh.settingsLayer name Settings.fileName)

/-- What the variables say. -/
def Shell.variableLayer (sh : Shell m) : m Settings.Layer := do
  let values ← Settings.variableNames.mapM fun name => do return (name, ← sh.lookup name)
  return Settings.Layer.ofVariables fun name => (values.lookup name).join

/-- The settings that a command works with. -/
def Shell.settings (sh : Shell m) (i : Invocation) : ExceptT Failure m Settings := do
  let file ← sh.fileLayer i.settingsFile
  let vars ← sh.variableLayer
  return Settings.ofLayers ([i.layer, vars] ++ file.toList)

/-- The compiler that the settings describe. -/
def compilerFor (s : Settings) : Except Failure Compiler :=
  match s.target with
  | .ok target => .ok (Script.compile target)
  | .error fault => .error (.origin s.cdnOrigin fault)

/-- Lets a failure say what it happened during. -/
def during {α : Type} (what : Failure → Failure) (action : ExceptT Failure m α) :
    ExceptT Failure m α :=
  tryCatchThe Failure action fun e => throw (what e)

def Shell.preparePage (sh : Shell m) (compile : Compiler) (file : String)
    (output : Option String) : ExceptT Failure m Unit := do
  let report ← during (.preparing file) (sh.prepareFile compile file)
  let kept := report.failed.length
  if 0 < kept then
    let count (n : Nat) : String := String.ofList (Decimal.natDigits n)
    sh.remark ("warning: " ++ count kept ++ " of " ++ count report.scripts.length ++
      " scripts kept as written")
  match output with
  | some path =>
    sh.writeWithDirectories path report.html
    sh.remark ("wrote " ++ path)
  | none => sh.say report.html

def Shell.exportFile (sh : Shell m) (compile : Compiler) (file directory : String) :
    ExceptT Failure m Unit := do
  let source ← sh.readPage file
  let (path, _) ← during (.exporting file) (sh.exportPage compile source directory)
  sh.remark ("wrote " ++ path ++ " (" ++ exportMediaType ++ ")")
  sh.say path

/-- Formats one page. If it is only checked, the answer is whether it would change. -/
def Shell.formatPage (sh : Shell m) (compile : Compiler) (check : Bool) (file : String) :
    ExceptT Failure m Bool := do
  let source ← sh.readPage file
  let formatted := format compile source
  if formatted == source then return false
  if check then sh.remark ("would reformat " ++ file)
  else
    sh.writeWithDirectories file formatted
    sh.remark ("formatted " ++ file)
  return check

def Shell.formatPages (sh : Shell m) (compile : Compiler) (check : Bool) (files : List String) :
    ExceptT Failure m Unit := do
  let changes ← files.mapM (sh.formatPage compile check)
  let count := changes.countP id
  if 0 < count then throw (.unformatted count)

def Shell.sharePage (sh : Shell m) (s : Settings) (file : String) (previewOnly shorten : Bool) :
    ExceptT Failure m Unit := do
  let links := ShareLinks.make s.shareBaseUrl (← sh.readPage file)
  let endpoint := if shorten then some s.shortenerUrl else none
  let lines ← sh.shareLines links previewOnly endpoint
  lines.forM sh.say

def Shell.openLink (sh : Shell m) (compile : Compiler) (link : String) :
    ExceptT Failure m Unit := do
  match Launch.ofFragment compile (fragmentOf link) with
  | .editor source =>
    sh.remark "editor source"
    sh.say source
  | .preview html =>
    sh.remark "preview document"
    sh.say html

/-- A preview server needs a file to serve. -/
def Shell.servePage (sh : Shell m) (s : Settings) (compile : Compiler) (file : String)
    (browse : Bool) : ExceptT Failure m Next := do
  if (← sh.kind? file) != some .file then throw (.notFile file)
  return .server compile file s.host s.port browse

/-- Runs a command. -/
def Shell.run (sh : Shell m) (i : Invocation) : ExceptT Failure m Next := do
  let s ← sh.settings i
  match i.command with
  | .sharePage file previewOnly shorten =>
    sh.sharePage s file previewOnly shorten
    return .nothing
  | command =>
    let compile ← compilerFor s
    match command with
    | .preparePage file output =>
      sh.preparePage compile file output
      return .nothing
    | .exportPage file directory =>
      sh.exportFile compile file directory
      return .nothing
    | .formatPages check files =>
      sh.formatPages compile check files
      return .nothing
    | .openLink link =>
      sh.openLink compile link
      return .nothing
    | .servePage file browse => sh.servePage s compile file browse
    | _ => return .console compile

end PagePreview.CommandLine
