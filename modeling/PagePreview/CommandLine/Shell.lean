import PagePreview.CommandLine.Failure
import PagePreview.Console.Prompt
import PagePreview.Files.Tree
import PagePreview.Settings.Layer

/-!
# What commands work with

A `Shell` holds what a command can do outside of itself: it works with files,
looks up variables, writes lines and asks a service for a shorter link. A
command only ever acts through a shell, so it is known by what it asks of it.

A `Desk` is a shell's world as a value. Its files are a `Tree`.
-/

namespace PagePreview.CommandLine

open Console (Output)

/-- The actions that commands are made of. -/
structure Shell (m : Type → Type) where
  read : String → m (Except Files.Fault (List UInt8))
  write : String → List UInt8 → m (Except Files.Fault Unit)
  makeDirectory : String → m (Except Files.Fault Unit)
  kind? : String → m (Option Files.Kind)
  /-- The path of the directory that other paths start from. -/
  home : m String
  /-- The value of a variable. -/
  lookup : String → m (Option String)
  emit : Output → m Unit
  /-- Asks the service at an address for a short form of a link. -/
  shorten : Url → String → m (Except String String)

section Actions

variable {m : Type → Type} [Monad m]

/-- Writes a line for the one who uses the command. -/
def Shell.say (sh : Shell m) (line : String) : ExceptT Failure m Unit :=
  sh.emit (Console.shownLine line)

/-- Writes a line next to the output. -/
def Shell.remark (sh : Shell m) (line : String) : ExceptT Failure m Unit :=
  sh.emit (Console.notedLine ("[livepad] " ++ line))

/-- The text in a file. -/
def Shell.readText (sh : Shell m) (path : String) : m (Except Files.Fault String) := do
  match ← sh.read path with
  | .error fault => return .error fault
  | .ok content => match Text.Utf8.decode? content with
    | .ok cs => return .ok (String.ofList cs)
    | .error _ => return .error .notText

/-- Reads the text of a page. -/
def Shell.readPage (sh : Shell m) (path : String) : ExceptT Failure m String := do
  match ← sh.readText path with
  | .ok text => return text
  | .error fault => throw (.reading path fault)

def Shell.writeText (sh : Shell m) (path text : String) : ExceptT Failure m Unit := do
  match ← sh.write path (Text.Utf8.encode text.toList) with
  | .ok () => return ()
  | .error fault => throw (.writing path fault)

/-- Makes a directory and the ones it lies in, as far as they are missing; `steps` bounds how
many those are. -/
def Shell.makeDirectories (sh : Shell m) : (steps : Nat) → String → m (Except Files.Fault Unit)
  | 0, _ => return .error .nameTooLong
  | steps + 1, path => do
    if path.isEmpty then return .ok ()
    let again : m (Except Files.Fault Unit) := do
      match ← sh.makeDirectory path with
      | .ok () => return .ok ()
      | .error fault =>
        if (← sh.kind? path) == some .directory then return .ok () else return .error fault
    match ← sh.makeDirectory path with
    | .ok () => return .ok ()
    | .error .missing =>
      match Files.parent? path with
      | none => return .error (.other "failed to create whole tree")
      | some parent =>
        match ← sh.makeDirectories steps parent with
        | .ok () => again
        | .error fault => return .error fault
    | .error fault =>
      if (← sh.kind? path) == some .directory then return .ok () else return .error fault

/-- Makes sure that there is a directory to write into. -/
def Shell.prepareDirectory (sh : Shell m) (path : String) : ExceptT Failure m Unit := do
  match ← sh.makeDirectories (path.length + 1) path with
  | .ok () => return ()
  | .error fault => throw (.makingDirectory path fault)

/-- Writes a text to a file in a directory that need not exist. -/
def Shell.writeWithDirectories (sh : Shell m) (path text : String) : ExceptT Failure m Unit := do
  match Files.parent? path with
  | some parent => sh.prepareDirectory parent
  | none => pure ()
  sh.writeText path text

end Actions

/-- A world that a shell works in: some files, variables, and what has been written. -/
structure Desk where
  files : Files.Tree := {}
  environment : List (String × String) := []
  home : String := ""
  output : List Output := []

namespace Desk

/-- An action that may change the files. -/
def change (f : Files.Tree → Except Files.Fault Files.Tree) :
    StateM Desk (Except Files.Fault Unit) := fun d =>
  match f d.files with
  | .ok files => (.ok (), { d with files })
  | .error fault => (.error fault, d)

/-- The shell that works with the files on a desk. It reaches no service. -/
def shell : Shell (StateM Desk) where
  read path := return (← get).files.read path
  write path content := change fun t => t.write path content
  makeDirectory path := change fun t => t.makeDirectory path
  kind? path := return (← get).files.kind? path
  home := return (← get).home
  lookup name := return (← get).environment.lookup name
  emit o := modify fun d => { d with output := d.output ++ [o] }
  shorten _ _ := return .error "no service can be reached"

/-- What has been written for the one who uses the command. -/
def shown (d : Desk) : String := String.join (d.output.map fun
  | .shown text => text
  | .noted _ => "")

/-- What has been written next to the output. -/
def noted (d : Desk) : String := String.join (d.output.map fun
  | .shown _ => ""
  | .noted text => text)

end Desk

end PagePreview.CommandLine
