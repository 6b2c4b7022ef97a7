import PagePreview.CommandLine.Invocation
import PagePreview.CommandLine.Run
import PagePreview.Console.Contexts
import PagePreview.Server.Browser
import PagePreview.Server.Response
import Std.Async.DNS
import Std.Async.TCP

/-!
# The program

Here commands meet files, variables, the input and the network. Nothing is
decided here: commands act through the `Shell` of this module, the console
reads its lines with `Prompt.turn`, and the preview server sends what
`respond` says.
-/

namespace PagePreview.Program

open CommandLine Console Server
open Script (Compiler)
open Std.Async Std.Async.TCP Std.Net

/-! ## Files -/

/-- A fault by the number that the system has for it, which may come with a minus sign. -/
def faultOfCode (signed : UInt32) (details : String) : Files.Fault :=
  let code := if signed < 0x80000000 then signed else 0 - signed
  if code == 2 then .missing
  else if code == 17 then .occupied
  else if code == 20 then .notDirectory
  else if code == 21 then .isDirectory
  else if code == 36 then .nameTooLong
  else .other (details ++ " (os error " ++ String.ofList (Decimal.natDigits code.toNat) ++ ")")

/-- What has gone wrong. -/
def faultOf : IO.Error → Files.Fault
  | .noFileOrDirectory _ code details | .interrupted _ code details => faultOfCode code details
  | .alreadyExists _ code details | .invalidArgument _ code details
  | .permissionDenied _ code details | .resourceExhausted _ code details
  | .inappropriateType _ code details | .noSuchThing _ code details => faultOfCode code details
  | .otherError code details | .resourceBusy code details | .resourceVanished code details
  | .unsupportedOperation code details | .hardwareFault code details
  | .unsatisfiedConstraints code details | .illegalOperation code details
  | .protocolError code details | .timeExpired code details => faultOfCode code details
  | .unexpectedEof => .other "unexpected end of file"
  | .userError text => .other text

/-- Does something with a path, and keeps what goes wrong. -/
def attempt {α : Type} (path : String) (action : IO α) : IO (Except Files.Fault α) := do
  if path.contains '\x00' then return .error .nulInPath
  try return .ok (← action)
  catch e => return .error (faultOf e)

/-- What a path leads to. -/
def kindAt? (path : String) : IO (Option Files.Kind) := do
  let place := (← IO.currentDir) / path
  if ← place.isDir then return some .directory
  else if ← place.pathExists then return some .file
  else return none

/-! ## What commands work with -/

def emit : Output → IO Unit
  | .shown text => do
    let out ← IO.getStdout
    out.putStr text
    out.flush
  | .noted text => do
    let out ← IO.getStderr
    out.putStr text
    out.flush

/-- The shell that works with the files of the machine. It reaches no service. -/
def shell : Shell IO where
  read path := attempt path do return (← IO.FS.readBinFile path).toList
  write path content := attempt path (IO.FS.writeBinFile path ⟨content.toArray⟩)
  makeDirectory path := attempt path (IO.FS.createDir path)
  kind? path := kindAt? path
  home := return (← IO.currentDir).toString
  lookup name := IO.getEnv name
  emit := emit
  shorten _ _ := return .error "no service can be reached"

/-! ## The console -/

/-- Reads a line with its end, of which some bytes have been read, given last one first. At the end
of the input there are no more. -/
partial def readLine (input : IO.FS.Stream) (line : List UInt8) : IO (List UInt8) := do
  match (← input.read 1).toList with
  | [] => return line.reverse
  | b :: _ => if b == 0x0A then return (b :: line).reverse else readLine input (b :: line)

/-- Lets lines be read one after the other; why that ended. -/
partial def converse (compile : Compiler) (input : IO.FS.Stream) (p : Prompt Contexts) :
    IO (Option Ending) := do
  emit (.shown promptText)
  let line ← readLine input []
  if line.isEmpty then return none
  match lineText line with
  | none => return some .unreadable
  | some line =>
    let t := p.turn Contexts.host compile line
    t.output.forM emit
    match t.ending with
    | some e => return some e
    | none => converse compile input t.prompt

/-- Runs a console until its input ends. -/
def runPrompt (compile : Compiler) : ExceptT Failure IO Unit := do
  match Prompt.start Contexts.host ({} : Contexts) with
  | (.error reason, _) => throw (.context reason)
  | (.ok p, _) =>
    emit (shownLine banner)
    match ← converse compile (← IO.getStdin) p with
    | some (.failed reason) => throw (.context reason)
    | some .unreadable => throw .consoleInput
    | _ => return ()

/-! ## The preview server -/

/-- The places of a host on the network. -/
def placesOf (host : String) : IO (Array IPAddr) := do
  match IPv4Addr.ofString host, IPv6Addr.ofString host with
  | some a, _ => return #[IPAddr.v4 a]
  | _, some a => return #[IPAddr.v6 a]
  | none, none => (DNS.getAddrInfo host "").block

/-- A socket that listens on a port. -/
def listenOn (host : String) (port : UInt16) : IO Socket.Server := do
  let socket ← Socket.Server.mk
  let places ← placesOf host
  match places.toList with
  | [] => throw (IO.userError "failed to lookup address information")
  | .v4 a :: _ => socket.bind (.v4 ⟨a, port⟩)
  | .v6 a :: _ => socket.bind (.v6 ⟨a, port⟩)
  socket.listen 128
  return socket

/-- The port that a socket listens on. -/
def portOf (socket : Socket.Server) : IO UInt16 := do
  match ← socket.getSockName with
  | .v4 a => return a.port
  | .v6 a => return a.port

/-- Answers one request. -/
def answerOne (compile : Compiler) (file : String) (client : Socket.Client) : IO Unit := do
  match ← (client.recv? (UInt64.ofNat requestLimit)).block with
  | none => return ()
  | some bytes =>
    let page := match ← (shell.readPage file).run with
      | .ok source => .ok source
      | .error fault => .error fault.chain
    let answer := respond compile page bytes.toList
    if !answer.isEmpty then
      (client.send (String.ofList answer).toUTF8).block
      client.shutdown.block

/-- Answers requests one after the other. -/
partial def answerAll (compile : Compiler) (file : String) (socket : Socket.Server) : IO Unit := do
  let client ← socket.accept.block
  try answerOne compile file client
  catch e =>
    emit (notedLine ("error: preview request failed: " ++ (faultOf e).message))
  answerAll compile file socket

/-- Serves a page. No browser can be launched from here. -/
def serve (compile : Compiler) (file host : String) (port : UInt16) (browse : Bool) :
    ExceptT Failure IO Unit := do
  match ← attempt host (listenOn host port) with
  | .error fault => throw (.listening host port fault.message)
  | .ok socket =>
    let url := pageAddress host (← portOf socket)
    shell.remark ("serving " ++ file ++ " at " ++ url)
    shell.say url
    if browse then
      let launch (_ : String) (_ : List String) : IO (Except Files.Fault Nat) :=
        return .error (.other "no program can be run")
      let launched : Except Failure Unit ← (openInBrowser launch url : IO _)
      match launched with
      | .error fault => shell.remark ("warning: " ++ fault.chain)
      | .ok () => pure ()
    answerAll compile file socket

/-! ## Running a command line -/

/-- Runs a command, and what is left to be run after it. -/
def runInvocation (i : Invocation) : ExceptT Failure IO Unit := do
  match ← shell.run i with
  | .nothing => return ()
  | .console compile => runPrompt compile
  | .server compile file host port browse => serve compile file host port browse

/-- Runs the words behind the name of the program; the status that the program ends with. -/
def runWords (words : List String) : IO UInt32 := do
  match Invocation.read ("livepad" :: words) with
  | .error .version =>
    emit (shownLine versionText)
    return 0
  | .error .help =>
    usageLines.forM fun line => emit (shownLine line)
    return 0
  | .error .misuse =>
    usageLines.forM fun line => emit (notedLine line)
    return 2
  | .ok i =>
    match ← (runInvocation i).run with
    | .ok () => return 0
    | .error fault =>
      emit (.noted fault.report)
      return 1

end PagePreview.Program

def main (words : List String) : IO UInt32 := PagePreview.Program.runWords words
