import PagePreview.Console.Bootstrap
import PagePreview.Console.Session
import PagePreview.Json.Reader

/-!
# Execution contexts

An execution context runs scripts with an engine and hands out the messages
that they post. Most messages wait in a list that the scripts themselves fill,
the outbox. A command that throws has its own message, which is kept outside
of the engine, together with everything that was posted before it.

An engine is known here only by what can be done with it (`ScriptEngine`).
-/

namespace PagePreview.Console

/-- An engine with states of type `ε` and values of type `α`. What is thrown is told as a text. -/
structure ScriptEngine (ε α : Type) where
  /-- Runs a script, but not the jobs that it leaves behind. -/
  evaluate : String → ε → Except String α × ε
  /-- Runs the jobs that wait. -/
  runJobs : ε → Except String Unit × ε
  isUndefined : α → Bool
  /-- A value as a text, for which scripts may be run. -/
  textOf : α → ε → Except String String × ε

/-- A context with the state of its engine, and the messages that are kept outside of it. -/
structure ExecutionContext (ε : Type) where
  id : ContextId
  engine : ε
  pending : List Json := []

/-- Why something could not be done with a context. -/
inductive ExecutionFault where
  | evaluating (scriptName thrown : String)
  | rendering (thrown : String)
  | jobs (thrown : String)
  | reading (thrown : String)
  /-- What scripts have put into the place of the outbox is no list. -/
  | notList (fault : Json.Fault)
  | preparing (what : String) (scriptName thrown : String)

/-- The message of a fault, with its causes behind it. -/
def ExecutionFault.messages : ExecutionFault → List String
  | evaluating name thrown => ["failed evaluating " ++ name ++ ": " ++ thrown]
  | rendering thrown => ["failed converting JS value to string: " ++ thrown]
  | jobs thrown => ["failed running queued jobs: " ++ thrown]
  | reading thrown => ["failed reading outbox: " ++ thrown]
  | notList fault => ["outbox is not valid JSON", fault.message]
  | preparing what name thrown =>
    ["failed installing " ++ what, "failed evaluating " ++ name ++ ": " ++ thrown]

/-- The message and the causes in one line. -/
def ExecutionFault.text (f : ExecutionFault) : String := String.intercalate ": " f.messages

/-! ## Scripts of the context itself -/

/-- The lines of the script that runs before the hook: a window whose messages go into the
outbox. -/
def windowLines : List String := [
  "",
  "globalThis.window = globalThis;",
  "globalThis.console = globalThis.console || \x7b\x7d;",
  "globalThis.__livepad_outbox = [];",
  "globalThis.parent = \x7b",
  "  postMessage: function (message) \x7b globalThis.__livepad_outbox.push(message); \x7d",
  "\x7d;"]

def windowScript : String := String.join (windowLines.map (· ++ "\n"))

/-- The script that empties the outbox; its value is what was in it, as JSON. -/
def readingScript : String := "JSON.stringify(globalThis.__livepad_outbox.splice(0))"

/-- The message that stands for something a command has thrown. -/
def errorRecord (thrown : String) : Json :=
  .ofFields [("method", .string "error"), ("data", .array [.string thrown])]

namespace ExecutionContext

variable {ε α : Type}

/-- Runs a script and then the jobs that wait; its value as a text, unless it has none. -/
def evaluate (g : ScriptEngine ε α) (source scriptName : String) (c : ExecutionContext ε) :
    Except ExecutionFault (Option String) × ExecutionContext ε :=
  match g.evaluate source c.engine with
  | (.error thrown, engine) => (.error (.evaluating scriptName thrown), { c with engine })
  | (.ok v, engine) =>
    match g.runJobs engine with
    | (.error thrown, engine) => (.error (.jobs thrown), { c with engine })
    | (.ok (), engine) =>
      if g.isUndefined v then (.ok none, { c with engine })
      else
        match g.textOf v engine with
        | (.error thrown, engine) => (.error (.rendering thrown), { c with engine })
        | (.ok text, engine) => (.ok (some text), { c with engine })

/-- Empties the outbox of an engine. -/
def takeOutbox (g : ScriptEngine ε α) (engine : ε) : Except ExecutionFault (List Json) × ε :=
  match g.evaluate readingScript engine with
  | (.error thrown, engine) => (.error (.reading thrown), engine)
  | (.ok v, engine) =>
    match g.textOf v engine with
    | (.error thrown, engine) => (.error (.reading thrown), engine)
    | (.ok text, engine) =>
      match Json.readWhole Json.anySequence text with
      | .error fault => (.error (.notList fault), engine)
      | .ok messages => (.ok messages, engine)

/-- Runs the script of a command and then the jobs that wait. What it throws becomes a message,
behind everything that was posted before. -/
def run (g : ScriptEngine ε α) (script : String) (c : ExecutionContext ε) :
    Except ExecutionFault Unit × ExecutionContext ε :=
  let jobs (c : ExecutionContext ε) : Except ExecutionFault Unit × ExecutionContext ε :=
    match g.runJobs c.engine with
    | (.error thrown, engine) => (.error (.jobs thrown), { c with engine })
    | (.ok (), engine) => (.ok (), { c with engine })
  match g.evaluate script c.engine with
  | (.ok _, engine) => jobs { c with engine }
  | (.error thrown, engine) =>
    match takeOutbox g engine with
    | (.error fault, engine) => (.error fault, { c with engine })
    | (.ok earlier, engine) =>
      jobs { c with engine, pending := c.pending ++ earlier ++ [errorRecord thrown] }

/-- Takes the messages that have been posted since the last time. The ones that were kept are
given up before the outbox is read. -/
def drain (g : ScriptEngine ε α) (c : ExecutionContext ε) :
    Except ExecutionFault (List Json) × ExecutionContext ε :=
  match takeOutbox g c.engine with
  | (.error fault, engine) => (.error fault, { c with engine, pending := [] })
  | (.ok messages, engine) => (.ok (c.pending ++ messages), { c with engine, pending := [] })

/-- Runs a script that prepares a context. -/
def prepare (g : ScriptEngine ε α) (what source scriptName : String) (c : ExecutionContext ε) :
    Except ExecutionFault (ExecutionContext ε) :=
  match c.evaluate g source scriptName with
  | (.ok _, c) => .ok c
  | (.error (.evaluating name thrown), _) => .error (.preparing what name thrown)
  | (.error fault, _) => .error fault

/-- A context whose scripts find a window, with the hook in place. -/
def start (g : ScriptEngine ε α) (id : ContextId) (engine : ε) :
    Except ExecutionFault (ExecutionContext ε) := do
  let c ← prepare g "prelude" windowScript "<prelude>" { id, engine }
  prepare g "console hook" bootstrap "<bootstrap>" c

end ExecutionContext

end PagePreview.Console
