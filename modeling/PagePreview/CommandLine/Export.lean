import PagePreview.CommandLine.Shell
import PagePreview.Page.Preparation

/-!
# Pages in files

Pages are read from files, and prepared pages are written to files.
-/

namespace PagePreview.CommandLine

open Script (Compiler)

/-- The name of a page that is put into a directory. -/
def exportFileName : String := "index.html"

/-- The media type of such a page. -/
def exportMediaType : String := "text/html"

section Actions

variable {m : Type → Type} [Monad m]

/-- Prepares the page in a file for running. -/
def Shell.prepareFile (sh : Shell m) (compile : Compiler) (path : String) :
    ExceptT Failure m Page.Report := do
  return Page.prepare compile (← sh.readPage path)

/-- Prepares a page for running and puts it into a directory. -/
def Shell.exportPage (sh : Shell m) (compile : Compiler) (source directory : String) :
    ExceptT Failure m (String × Page.Report) := do
  let report := Page.prepare compile source
  sh.prepareDirectory directory
  let path := Files.inside directory exportFileName
  sh.writeText path report.html
  return (path, report)

end Actions

end PagePreview.CommandLine
