import PagePreview.Console.Command
import PagePreview.Console.Message
import PagePreview.Text.Blank

/-!
# A session of the console

A session listens to one execution context at a time. Its log holds what was
submitted and what that context has sent, in the order in which it came; the
log begins anew with every context, while the history of lines goes on.
-/

namespace PagePreview.Console

open Script

/-! ## The history of the prompt

The lines that were submitted, and a cursor among them. The place behind the
last line is the empty one that a new line is written in, so the cursor is at
most the number of lines.
-/

structure History where
  entries : List String := []
  cursor : Nat := 0
deriving DecidableEq, Repr

namespace History

/-- Adds a line and goes to the place behind it. -/
def push (h : History) (line : String) : History :=
  { entries := h.entries ++ [line], cursor := h.entries.length + 1 }

/-- What the cursor shows. -/
def shown (h : History) : String := h.entries.getD h.cursor ""

/-- Goes back by one line, and shows it. Nothing is shown as long as there are no lines. -/
def previous (h : History) : History × Option String :=
  if h.entries.isEmpty then (h, none)
  else
    let h := { h with cursor := h.cursor - 1 }
    (h, some h.shown)

/-- Goes on by one line, and shows it. -/
def next (h : History) : History × Option String :=
  if h.entries.isEmpty then (h, none)
  else
    let h := { h with cursor := min (h.cursor + 1) h.entries.length }
    (h, some h.shown)

end History

/-! ## Sessions -/

/-- The identity of an execution context. No two contexts have the same. -/
structure ContextId where
  number : Nat
deriving DecidableEq, Repr

def ContextId.text (c : ContextId) : String := "ctx-" ++ String.ofList (Nat.toDigits 10 c.number)

/-- What becomes of a payload. -/
inductive Delivery where
  | appended
  /-- It came from a context that the session does not listen to. -/
  | foreign
  | malformed (fault : MessageFault)
deriving DecidableEq, Repr

structure Session where
  /-- The context that the session listens to. -/
  owner : Option ContextId := none
  log : List Message := []
  history : History := {}

namespace Session

/-- Listens to a context from now on, with an empty log. -/
def attach (s : Session) (c : ContextId) : Session := { s with owner := some c, log := [] }

/-- Listens to no context. -/
def detach (s : Session) : Session := { s with owner := none }

/-- Takes a payload that a context has sent. -/
def receive (s : Session) (source : ContextId) (payload : Json) : Session × Delivery :=
  if s.owner == some source then
    match Message.decode payload with
    | .ok m => ({ s with log := s.log ++ [m] }, .appended)
    | .error e => (s, .malformed e)
  else (s, .foreign)

/-- Takes a line, and gives the script that runs it. A blank line does nothing. -/
def submit (compile : Compiler) (s : Session) (line : String) : Session × Option String :=
  let command := Text.trim line
  if command.isEmpty then (s, none)
  else
    ({ s with log := s.log ++ [.command command], history := s.history.push command },
      some (wrapCommand compile command))

/-- Empties the log. -/
def clear (s : Session) : Session := { s with log := [] }

end Session

end PagePreview.Console
