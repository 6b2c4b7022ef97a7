import PagePreview.Console.Session
import PagePreview.Text.Utf8

/-!
# The prompt

The prompt reads lines. A few of them, which begin with a full stop, are about
the console itself; every other one is run in the current execution context.
After that the messages that the context has sent are taken, and those that
have not been shown yet are shown.

Execution contexts are reached through a `Host`. What it can do may change its
state and may fail, and nothing else is known about it here.
-/

namespace PagePreview.Console

open Script Text

/-- What can be done with execution contexts, in states of type `ω`. -/
structure Host (ω : Type) where
  create : ω → Except String ContextId × ω
  /-- Runs a script in a context. -/
  run : ContextId → String → ω → Except String Unit × ω
  /-- Takes the payloads that a context has sent. -/
  drain : ContextId → ω → Except String (List Json) × ω

/-- A piece of what the prompt writes. -/
inductive Output where
  | shown (text : String)
  /-- It goes where errors and warnings go. -/
  | noted (text : String)
deriving DecidableEq, Repr

/-- Why a prompt ends. -/
inductive Ending where
  | quit
  | failed (reason : String)
  /-- The input cannot be read as text. -/
  | unreadable
deriving DecidableEq, Repr

structure Prompt (ω : Type) where
  host : ω
  context : ContextId
  session : Session := {}
  /-- How many messages of the log have been shown. -/
  printed : Nat := 0

/-- What a line has come to. -/
structure Turn (ω : Type) where
  prompt : Prompt ω
  output : List Output := []
  ending : Option Ending := none

def banner : String := "livepad console. Type .help for commands, .exit to quit."

def promptText : String := "livepad> "

def shownLine (s : String) : Output := .shown (s ++ "\n")

def notedLine (s : String) : Output := .noted (s ++ "\n")

def helpLines : List String := [
  "Console commands:",
  "  .help    - show this help",
  "  .clear   - clear the console log",
  "  .history - list submitted commands",
  "  .reset   - start a fresh execution context",
  "  .exit    - quit"]

/-- A number that takes at least four places. -/
def fourPlaces (n : Nat) : String :=
  let ds := Nat.toDigits 10 n
  String.ofList (List.replicate (4 - ds.length) ' ' ++ ds)

def historyLines (h : History) : List String :=
  h.entries.mapIdx fun i entry => fourPlaces (i + 1) ++ "  " ++ entry

/-- Hands payloads of a context to a session, and notes the ones that are no messages. -/
def receiveAll (source : ContextId) : Session → List Json → Session × List Output
  | s, [] => (s, [])
  | s, p :: ps =>
    let (s, delivery) := s.receive source p
    let notes := match delivery with
      | .malformed fault =>
        [notedLine ("[livepad] warning: ignored console payload: " ++ fault.message)]
      | _ => []
    let (s, more) := receiveAll source s ps
    (s, notes ++ more)

namespace Prompt

variable {ω : Type}

/-- Takes what a context has sent. -/
def route (h : Host ω) (source : ContextId) (p : Prompt ω) : Prompt ω × List Output :=
  match h.drain source p.host with
  | (.error e, host) =>
    ({ p with host }, [notedLine ("error: failed reading console messages: " ++ e)])
  | (.ok payloads, host) =>
    let (session, notes) := receiveAll source p.session payloads
    ({ p with host, session }, notes)

/-- Shows the messages that have not been shown. -/
def showNew (p : Prompt ω) : Prompt ω × List Output :=
  ({ p with printed := p.session.log.length },
    (p.session.log.drop p.printed).map fun m => shownLine m.line)

/-- Starts over with a new context. What the old one still sends comes from a context that is no
longer listened to. -/
def reset (h : Host ω) (p : Prompt ω) : Turn ω :=
  match h.create p.host with
  | (.error e, host) => { prompt := { p with host }, ending := some (.failed e) }
  | (.ok context, host) =>
    let stale := p.context
    let p : Prompt ω := { p with host, context, session := p.session.attach context, printed := 0 }
    let (p, notes) := p.route h stale
    { prompt := p, output := notes ++ [shownLine ("started " ++ context.text)] }

/-- Runs a line in the current context. -/
def submit (h : Host ω) (compile : Compiler) (p : Prompt ω) (line : String) : Turn ω :=
  match p.session.submit compile line with
  | (_, none) => { prompt := p }
  | (session, some script) =>
    let (ran, host) := h.run p.context script p.host
    let notes := match ran with
      | .error e => [notedLine ("error: " ++ e)]
      | .ok () => []
    let (p, more) := { p with host, session }.route h p.context
    let (p, shown) := p.showNew
    { prompt := p, output := notes ++ more ++ shown }

/-- What a line does. -/
def turn (h : Host ω) (compile : Compiler) (p : Prompt ω) (line : String) : Turn ω :=
  match trim line with
  | "" => { prompt := p }
  | ".exit" => { prompt := p, ending := some .quit }
  | ".help" => { prompt := p, output := helpLines.map shownLine }
  | ".clear" =>
    { prompt := { p with session := p.session.clear, printed := 0 }
      output := [shownLine "console cleared"] }
  | ".history" => { prompt := p, output := (historyLines p.session.history).map shownLine }
  | ".reset" => p.reset h
  | _ => p.submit h compile line

/-- Lets lines be read one after the other; in the place of one that is no text there is
nothing. -/
def run (h : Host ω) (compile : Compiler) :
    Prompt ω → List (Option String) → List Output × Option Ending × ω
  | p, [] => ([.shown promptText], none, p.host)
  | p, none :: _ => ([.shown promptText], some .unreadable, p.host)
  | p, some line :: lines =>
    let t := p.turn h compile line
    match t.ending with
    | some e => (.shown promptText :: t.output, some e, t.prompt.host)
    | none =>
      let (more, ending, host) := run h compile t.prompt lines
      (.shown promptText :: t.output ++ more, ending, host)

/-- The prompt of a new context. -/
def start (h : Host ω) (host : ω) : Except String (Prompt ω) × ω :=
  match h.create host with
  | (.error e, host) => (.error e, host)
  | (.ok context, host) =>
    (.ok { host, context, session := ({} : Session).attach context }, host)

end Prompt

/-- The lines of an input, each with its end. -/
def inputLines : List UInt8 → List (List UInt8)
  | [] => []
  | b :: bs =>
    if b == 0x0A then [b] :: inputLines bs
    else
      match inputLines bs with
      | [] => [[b]]
      | l :: ls => (b :: l) :: ls

/-- A line as text. -/
def lineText (bs : List UInt8) : Option String :=
  match Utf8.decode? bs with
  | .ok cs => some (String.ofList cs)
  | .error _ => none

/-- The whole of a console: what it writes for an input, and why it ended. -/
def runConsole {ω : Type} (h : Host ω) (compile : Compiler) (host : ω) (input : List UInt8) :
    List Output × Option Ending × ω :=
  match Prompt.start h host with
  | (.error e, host) => ([], some (.failed e), host)
  | (.ok p, _) =>
    let (output, ending, host) := p.run h compile ((inputLines input).map lineText)
    (shownLine banner :: output, ending, host)

end PagePreview.Console
