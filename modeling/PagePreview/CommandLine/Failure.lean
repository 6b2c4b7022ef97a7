import PagePreview.Files.Tree
import PagePreview.Import.Origin
import PagePreview.Json.Fault

/-!
# Failures

A failure is told from the outside in: what was to be done comes first, and
after it comes what it was caused by, down to the innermost cause. `chain` puts
all of that on one line, and `report` is the text that a command ends with.
-/

namespace PagePreview.CommandLine

/-- Why a command fails. -/
inductive Failure where
  | reading (path : String) (fault : Files.Fault)
  | makingDirectory (path : String) (fault : Files.Fault)
  | writing (path : String) (fault : Files.Fault)
  | readingSettings (path : String) (fault : Files.Fault)
  | settings (path : String) (fault : Json.Fault)
  | origin (input : String) (fault : Import.OriginFault)
  | preparing (path : String) (cause : Failure)
  | exporting (path : String) (cause : Failure)
  | unformatted (count : Nat)
  | notFile (path : String)
  | listening (host : String) (port : UInt16) (reason : String)
  | launching (url : String) (fault : Files.Fault)
  /-- The browser was launched and did not succeed. -/
  | browser (status : Nat)
  /-- The console has no execution context. -/
  | context (reason : String)
  | consoleInput

namespace Failure

/-- What was to be done, and then the causes. -/
def messages : Failure → List String
  | .reading path fault => ["failed reading document " ++ path, fault.message]
  | .makingDirectory path fault => ["failed creating output dir " ++ path, fault.message]
  | .writing path fault => ["failed writing " ++ path, fault.message]
  | .readingSettings path fault => ["failed reading config file " ++ path, fault.message]
  | .settings path fault => ["failed parsing config file " ++ path, fault.message]
  | .origin input fault => ["failed resolving the CDN origin setting", fault.message input]
  | .preparing path cause => ("failed rewriting " ++ path) :: cause.messages
  | .exporting path cause => ("failed exporting " ++ path) :: cause.messages
  | .unformatted count =>
    [String.ofList (Decimal.natDigits count) ++ " file(s) need formatting"]
  | .notFile path => ["'" ++ path ++ "' is not a file"]
  | .listening host port reason =>
    ["failed binding preview server on " ++ host ++ ":" ++
      String.ofList (Decimal.natDigits port.toNat), reason]
  | .launching url fault => ["failed launching browser for " ++ url, fault.message]
  | .browser status =>
    ["browser command exited with status exit status: " ++
      String.ofList (Decimal.natDigits status)]
  | .context reason => [reason]
  | .consoleInput => ["failed reading console input", Files.Fault.notText.message]

/-- The whole failure on one line. -/
def chain (f : Failure) : String := ": ".intercalate f.messages

/-- The text of a cause, behind its mark; further lines of it are indented by `margin`. -/
def causeText (mark margin cause : String) : String :=
  mark ++ ("\n" ++ margin).intercalate
    ((Text.splitWhere (· == '\n') cause.toList).map String.ofList)

/-- The causes, one a line. They are numbered if there are several. -/
def causeLines : List String → List String
  | [] => []
  | [cause] => [causeText "    " "    " cause]
  | causes => causes.mapIdx fun i cause =>
    let number := Decimal.natDigits i
    let mark := String.ofList (List.replicate (5 - number.length) ' ' ++ number) ++ ": "
    causeText mark "       " cause

/-- The text that a command ends with. -/
def report (f : Failure) : String :=
  match f.messages with
  | [] => ""
  | message :: causes =>
    let lines := causeLines causes
    "Error: " ++ message ++ "\n" ++
      if lines.isEmpty then "" else "\nCaused by:\n" ++ String.join (lines.map (· ++ "\n"))

end Failure

end PagePreview.CommandLine
