import PagePreview.Console.Bootstrap
import PagePreview.Markup.Document
import PagePreview.Script.Compiler
import PagePreview.Text.Blank
import PagePreview.Text.Search

/-!
# Preparing a page for running

A page is prepared script by script. `decide` says what becomes of one
script, given its number on the page, and the page is edited with that and
with nothing else; so the scripts cannot influence each other, and the rest
of the page stays as it was.

`prepare` makes a page that runs: scripts are compiled and the console
hook is put in front. `format` only prints the scripts anew.
-/

namespace PagePreview.Page

open Markup Script Text

/-! ## Kinds of scripts

What a script is follows from its `type`, in whatever case it is written.
Types that browsers do not run, such as JSX, are of the kind `authoring`;
everything that is no script at all is of the kind `other` and is never
looked into.
-/

inductive ScriptKind where
  | module
  | classic
  | authoring (type : String)
  | other (type : String)
deriving DecidableEq, Repr

def classicTypes : List String :=
  ["text/javascript", "application/javascript", "text/ecmascript", "application/ecmascript",
    "application/x-javascript", "text/x-javascript", "text/jscript", "text/livescript"]

def authoringTypes : List String := ["text/babel", "text/jsx", "text/typescript", "text/tsx"]

namespace ScriptKind

/-- The kind that a `type` attribute stands for. Without one, or with a blank one, a script is a
classic script. -/
def ofType (type? : Option String) : ScriptKind :=
  let type := trim (type?.getD "")
  let lowered := lower type
  if type.isEmpty then .classic
  else if lowered == "module" then .module
  else if classicTypes.contains lowered then .classic
  else if authoringTypes.contains lowered then .authoring lowered
  else .other type

/-- Whether scripts of this kind are compiled. -/
def isCompiled : ScriptKind → Bool
  | .other _ => false
  | _ => true

/-- Whether a compiled script of this kind has to run as a module. Authoring types lower to
modules; a classic script becomes one when it is given an import. -/
def becomesModule (kind : ScriptKind) (injected : Bool) : Bool :=
  match kind with
  | .authoring _ => true
  | .classic => injected
  | .module => false
  | .other _ => false

end ScriptKind

/-! ## Scripts that may stand inside a script element

A script element ends at the first `</script`, whatever that means to the
script. `guardChars` writes the slash of each one behind a backslash, which
means the same inside a string literal and can no longer end the element.
-/

/-- The start of the end tag of a script, in lower case. -/
def endTagStart : List Char := "</script".toList

/-- Puts a backslash into every `</script` of either case. -/
def guardChars : List Char → List Char
  | [] => []
  | c :: cs =>
    if startsWithNoCase endTagStart (c :: cs) then c :: '\\' :: guardChars cs
    else c :: guardChars cs

/-- A script that can be put into a script element. -/
def guardEndTags (script : String) : String := String.ofList (guardChars script.toList)

/-! ## What is done to the scripts of a page -/

/-- What became of a script. -/
inductive Outcome where
  /-- The script was empty or no script at all. -/
  | skipped
  /-- The script could not be processed and was left as it was. -/
  | kept (fault : Fault)
  /-- The script was compiled. -/
  | compiled (injected : Bool) (specifiers : Nat)
deriving DecidableEq, Repr

structure ScriptReport where
  index : Nat
  kind : ScriptKind
  outcome : Outcome
deriving DecidableEq, Repr

/-- What is done to the scripts of a page. -/
inductive Purpose where
  | run
  | format
deriving DecidableEq, Repr

def Purpose.mode : Purpose → Mode
  | .run => .document
  | .format => .format

/-- What becomes of a script, and the attributes and the text it is given. -/
structure Decision where
  kind : ScriptKind
  outcome : Outcome
  edit : Edit

/-- Decides about the script with that number. -/
def decide (compile : Compiler) (purpose : Purpose) (index : Nat) (script : Element) : Decision :=
  let kind := ScriptKind.ofType (script.attribute? "type")
  let unchanged : Edit := { attributes := script.attributes }
  if script.text.isEmpty || !kind.isCompiled then ⟨kind, .skipped, unchanged⟩
  else
    let result := compile (Request.ofScript purpose.mode script.text index)
    match result.fault with
    | some fault => ⟨kind, .kept fault, unchanged⟩
    | none =>
      let promoted := purpose == .run && kind.becomesModule result.injected
      { kind
        outcome := .compiled result.injected result.resolved
        edit := {
          attributes :=
            if promoted then setAttribute "type" "module" script.attributes else script.attributes
          text := some (guardEndTags result.javascript) } }

/-- The page with every script edited as decided. -/
def editScripts (compile : Compiler) (purpose : Purpose) (page : Document) : Document :=
  { page with
    root := page.root.editDescendants "script" fun i e => (decide compile purpose i e).edit }

/-- What becomes of each script of a page, in the order of the page. -/
def scriptReports (compile : Compiler) (purpose : Purpose) (page : Document) :
    List ScriptReport :=
  page.scripts.mapIdx fun index script =>
    let d := decide compile purpose index script
    ⟨index, d.kind, d.outcome⟩

/-- The script element that holds the console hook. -/
def bootstrapScript : Markup.Node := .element "script" [] [.text Console.bootstrap]

structure Report where
  html : String
  scripts : List ScriptReport

/-- The page that runs: its scripts compiled and the console hook in front of them. -/
def prepared (compile : Compiler) (page : Document) : Document :=
  (editScripts compile .run page).prependToHead bootstrapScript

/-- Prepares a page for running. Every text is a page, and a script that cannot be compiled
stays as it is, so this cannot fail. -/
def prepare (compile : Compiler) (html : String) : Report :=
  let page := Document.parse html
  ⟨(prepared compile page).toHtml, scriptReports compile .run page⟩

/-- Prints the scripts of a page anew and changes nothing else. -/
def format (compile : Compiler) (html : String) : String :=
  (editScripts compile .format (Document.parse html)).toHtml

/-- The scripts that could not be compiled. -/
def Report.failed (r : Report) : List ScriptReport :=
  r.scripts.filter fun s => match s.outcome with
    | .kept _ => true
    | _ => false

end PagePreview.Page
