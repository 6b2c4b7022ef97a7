import PagePreview.CommandLine.Failure

/-!
# Launching a browser

The program that opens an address in the browser of the desktop is told the
address and nothing else. It ends with a status, which is zero if it has been
successful.
-/

namespace PagePreview.Server

open CommandLine (Failure)

/-- The program that opens addresses. -/
def launcher : String := "xdg-open"

/-- Opens an address, where `launch` runs a program with arguments and gives its status. -/
def openInBrowser {m : Type → Type} [Monad m]
    (launch : String → List String → m (Except Files.Fault Nat)) (url : String) :
    m (Except Failure Unit) := do
  match ← launch launcher [url] with
  | .error fault => return .error (.launching url fault)
  | .ok 0 => return .ok ()
  | .ok status => return .error (.browser status)

end PagePreview.Server
