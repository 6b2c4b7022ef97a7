import PagePreview.Console.Prompt
import PagePreview.Proofs.Console.SessionLog

/-!
# What a conversation shows

The prompt remembers by a counter how much of the log it has shown, and the
log is emptied behind its back by two of the console's own commands.  Nothing
is lost and nothing is shown twice because the counter is the length of the
log between any two lines (`Settled`).

A `Round` is one line together with the prompt that reads it.  What a round
adds to the log is told without the log: the echo of the line, then what the
context hands out as far as it can be read (`Round.messages`).  The things
that it does to the session are told as a row of steps (`Round.steps`), so
that the sessions of a conversation are those of `Session.run`.

Main results: `shown_turn` says what one round writes, `session_turn` what it
does to the session, `Prompt.showsEachOnce_run` puts all rounds together, and
`runConsole_showsEachOnce` starts from the beginning of the conversation.
-/

namespace PagePreview.Console

open Script Text

/-- The text of an output that goes to the reader of the console. -/
def Output.text? : Output → Option String
  | .shown text => some text
  | .noted _ => none

/-- What is shown, without what goes where errors and warnings go. -/
def shownTexts (output : List Output) : List String := output.filterMap Output.text?

/-- The message of a payload, if it has one. -/
def Message.read? (payload : Json) : Option Message := (Message.decode payload).toOption

/-- A session after some more steps. -/
def Session.after (s : Session) (steps : List Session.Step) : Session :=
  steps.foldl Session.Step.apply s

/-- What a line is to the console. -/
inductive Order where
  | blank | exit | help | clear | history | reset
  /-- Everything else is run. -/
  | script
deriving DecidableEq

def Order.of (line : String) : Order :=
  if trim line = "" then blank
  else if trim line = ".exit" then exit
  else if trim line = ".help" then help
  else if trim line = ".clear" then clear
  else if trim line = ".history" then history
  else if trim line = ".reset" then reset
  else script

theorem Order.trim_ne_empty {line : String} (h : Order.of line = script) : trim line ≠ "" := by
  intro hBlank
  simp [Order.of, hBlank] at h

/-- The payloads that a context hands out; none if it cannot be asked. -/
def Host.payloads {ω : Type} (h : Host ω) (source : ContextId) (host : ω) : List Json :=
  ((h.drain source host).1.toOption).getD []

/-- A line, and the prompt that reads it. -/
structure Round (ω : Type) where
  prompt : Prompt ω
  line : String

namespace Round

variable {ω : Type} (h : Host ω) (compile : Compiler) (r : Round ω)

def turn : Turn ω := r.prompt.turn h compile r.line

/-- What the current context hands out after it has run the line. -/
def sent : List Json :=
  h.payloads r.prompt.context
    (h.run r.prompt.context (wrapCommand compile (trim r.line)) r.prompt.host).2

/-- The context that takes the place of the current one. -/
def created? : Option ContextId :=
  if Order.of r.line = .reset then (h.create r.prompt.host).1.toOption else none

/-- The messages that a round brings: the echo of its line, then what can be read of what the
context hands out, in that order. -/
def messages : List Message :=
  if Order.of r.line = .script then
    .command (trim r.line) :: (r.sent h compile).filterMap Message.read?
  else []

/-- What the console itself says to a line. -/
def answer : List String :=
  match Order.of r.line with
  | .help => helpLines
  | .clear => ["console cleared"]
  | .history => historyLines r.prompt.session.history
  | .reset => (r.created? h).toList.map fun c => "started " ++ c.text
  | .blank | .exit | .script => []

/-- What a round does to the session.  The replaced context is asked after the new one has been
attached. -/
def steps : List Session.Step :=
  match Order.of r.line with
  | .clear => [.clear]
  | .reset =>
    (r.created? h).toList.flatMap fun c =>
      .attach c :: (h.payloads r.prompt.context (h.create r.prompt.host).2).map
        (.receive r.prompt.context)
  | .script => .submit compile r.line :: (r.sent h compile).map (.receive r.prompt.context)
  | .blank | .exit | .help | .history => []

/-- The texts that a round shows, with the invitation to write a line in front. -/
def shown : List String :=
  promptText :: (r.answer h ++ (r.messages h compile).map Message.line).map (· ++ "\n")

end Round

/-- The invitation that no line follows, if the input ended there. -/
def unanswered : Option Ending → List String
  | none | some .unreadable => [promptText]
  | some .quit | some (.failed _) => []

namespace Prompt

variable {ω : Type}

/-- The rounds of a conversation. -/
def rounds (h : Host ω) (compile : Compiler) : Prompt ω → List (Option String) → List (Round ω)
  | p, some line :: lines =>
    ⟨p, line⟩ ::
      match (p.turn h compile line).ending with
      | some _ => []
      | none => rounds h compile (p.turn h compile line).prompt lines
  | _, _ => []

/-- The contexts of a conversation, in the order in which they were current. -/
def contexts (h : Host ω) (compile : Compiler) (p : Prompt ω) (lines : List (Option String)) :
    List ContextId :=
  p.context :: (p.rounds h compile lines).filterMap (Round.created? h)

/-- Between two lines all messages of the log have been shown, and the session listens to the
current context. -/
structure Settled (p : Prompt ω) : Prop where
  printed : p.printed = p.session.log.length
  owner : p.session.owner = some p.context

end Prompt

@[simp] theorem shownTexts_append (a b : List Output) :
    shownTexts (a ++ b) = shownTexts a ++ shownTexts b := List.filterMap_append

@[simp] theorem shownTexts_shownLine (line : String) :
    shownTexts [shownLine line] = [line ++ "\n"] := rfl

@[simp] theorem shownTexts_map_shownLine (lines : List String) :
    shownTexts (lines.map shownLine) = lines.map (· ++ "\n") := by
  induction lines with
  | nil => rfl
  | cons l ls ih => simpa [shownTexts, shownLine, Output.text?] using ih

@[simp] theorem Session.after_nil (s : Session) : s.after [] = s := rfl

@[simp] theorem Session.after_cons (s : Session) (step : Session.Step) (steps : List Session.Step) :
    s.after (step :: steps) = (step.apply s).after steps := rfl

/-! ## Handing payloads to a session -/

section ReceiveAll

variable (source : ContextId) (s : Session) (payloads : List Json)

theorem receiveAll_fst : (receiveAll source s payloads).1 =
    s.after (payloads.map (.receive source)) := by
  induction payloads generalizing s with
  | nil => rfl
  | cons p ps ih => exact ih (s.receive source p).1

theorem shownTexts_receiveAll : shownTexts (receiveAll source s payloads).2 = [] := by
  induction payloads generalizing s with
  | nil => rfl
  | cons p ps ih =>
      have hRest := ih (s.receive source p).1
      simp only [shownTexts] at hRest
      simp only [receiveAll, shownTexts, List.filterMap_append, hRest, List.append_nil]
      split <;> simp [notedLine, Output.text?]

end ReceiveAll

/-- The owner's payloads go to the log as far as they can be read. -/
theorem after_receive_of_owner {source : ContextId} {s : Session}
    (hOwner : s.owner = some source) (payloads : List Json) :
    s.after (payloads.map (.receive source)) =
      { s with log := s.log ++ payloads.filterMap Message.read? } := by
  induction payloads generalizing s with
  | nil => simp
  | cons p ps ih =>
      have hStep : Session.Step.apply s (.receive source p) =
          { s with log := s.log ++ (Message.read? p).toList } := by
        simp only [Session.Step.apply, Session.receive, hOwner, beq_self_eq_true, if_true,
          Message.read?]
        cases Message.decode p <;> simp [Except.toOption, ← hOwner]
      rw [List.map_cons, Session.after_cons, hStep,
        ih (s := { s with log := s.log ++ (Message.read? p).toList }) hOwner]
      cases hRead : Message.read? p <;> simp [hRead]

/-- Payloads of any other context leave no trace. -/
theorem after_receive_of_ne {source : ContextId} {s : Session}
    (hOwner : s.owner ≠ some source) (payloads : List Json) :
    s.after (payloads.map (.receive source)) = s := by
  induction payloads with
  | nil => rfl
  | cons p ps ih =>
      have hStep : Session.Step.apply s (.receive source p) = s := by
        simp [Session.Step.apply, Session.receive, hOwner]
      rw [List.map_cons, Session.after_cons, hStep, ih]

/-! ## One round -/

namespace Prompt

variable {ω : Type} (h : Host ω) (compile : Compiler)

theorem turn_eq (p : Prompt ω) (line : String) : p.turn h compile line =
    match Order.of line with
    | .blank => { prompt := p }
    | .exit => { prompt := p, ending := some .quit }
    | .help => { prompt := p, output := helpLines.map shownLine }
    | .clear =>
      { prompt := { p with session := p.session.clear, printed := 0 }
        output := [shownLine "console cleared"] }
    | .history => { prompt := p, output := (historyLines p.session.history).map shownLine }
    | .reset => p.reset h
    | .script => p.submit h compile line := by
  unfold turn Order.of
  split <;> simp_all

/-- All that asking a context can do: the session receives what is handed out, and nothing is
shown. -/
theorem route_eq (source : ContextId) (p : Prompt ω) : ∃ notes, shownTexts notes = [] ∧
    p.route h source =
      ({ p with
        host := (h.drain source p.host).2
        session := p.session.after ((h.payloads source p.host).map (.receive source)) }, notes) := by
  unfold route Host.payloads
  split
  · next e host hDrain =>
      exact ⟨[notedLine ("error: failed reading console messages: " ++ e)], rfl,
        by simp [hDrain, Except.toOption]⟩
  · next payloads host hDrain =>
      exact ⟨(receiveAll source p.session payloads).2, shownTexts_receiveAll ..,
        by simp [hDrain, Except.toOption, receiveAll_fst]⟩

/-- All that a line can do that is run: the messages that are new in the log are shown, behind
notes. -/
theorem submit_eq (p : Prompt ω) {line : String} (hLine : trim line ≠ "") :
    ∃ session notes, shownTexts notes = [] ∧
      session = p.session.after (.submit compile line ::
        (h.payloads p.context (h.run p.context (wrapCommand compile (trim line)) p.host).2).map
          (.receive p.context)) ∧
      p.submit h compile line =
        { prompt :=
            { host := (h.drain p.context
                (h.run p.context (wrapCommand compile (trim line)) p.host).2).2
              context := p.context
              session
              printed := session.log.length }
          output := notes ++ ((session.log.drop p.printed).map Message.line).map shownLine } := by
  have hSubmit : p.session.submit compile line =
      (Session.Step.apply p.session (.submit compile line),
        some (wrapCommand compile (trim line))) := by
    simp [Session.Step.apply, Session.submit, hLine]
  obtain ⟨notes, hNotes, hRoute⟩ := route_eq h p.context
    { p with
      host := (h.run p.context (wrapCommand compile (trim line)) p.host).2
      session := Session.Step.apply p.session (.submit compile line) }
  simp only [submit, hSubmit, hRoute, showNew]
  split
  · next e _ =>
      exact ⟨_, notedLine ("error: " ++ e) :: notes, hNotes, rfl, by simp [Function.comp_def]⟩
  · exact ⟨_, notes, hNotes, rfl, by simp [Function.comp_def]⟩

/-- All that `.reset` can do: without a new context the console ends, and with one the session
begins anew and the old context is asked once more. -/
theorem reset_eq (p : Prompt ω) :
    (∃ e host, h.create p.host = (.error e, host) ∧
      p.reset h = { prompt := { p with host }, ending := some (.failed e) }) ∨
    ∃ c host session notes, shownTexts notes = [] ∧ h.create p.host = (.ok c, host) ∧
      session = p.session.after
        (.attach c :: (h.payloads p.context host).map (.receive p.context)) ∧
      p.reset h =
        { prompt :=
            { host := (h.drain p.context host).2, context := c, session, printed := 0 }
          output := notes ++ ["started " ++ c.text].map shownLine } := by
  unfold reset
  split
  · next e host hCreate => exact .inl ⟨e, host, hCreate, rfl⟩
  · next c host hCreate =>
      obtain ⟨notes, hNotes, hRoute⟩ := route_eq h p.context
        { p with host, context := c, session := p.session.attach c, printed := 0 }
      exact .inr ⟨c, host, _, notes, hNotes, hCreate, rfl, by simp only [hRoute]; rfl⟩

end Prompt

namespace Round

variable {ω : Type} (h : Host ω) (compile : Compiler) (r : Round ω)

/-- The session at the end of a round is that of its beginning with the steps of the round. -/
theorem session_turn :
    (r.turn h compile).prompt.session = r.prompt.session.after (r.steps h compile) := by
  unfold turn steps
  rw [Prompt.turn_eq]
  cases hOrder : Order.of r.line with
  | blank => rfl
  | exit => rfl
  | help => rfl
  | clear => rfl
  | history => rfl
  | reset =>
      obtain ⟨e, host, hCreate, hTurn⟩ | ⟨c, host, _, _, _, hCreate, rfl, hTurn⟩ :=
        r.prompt.reset_eq h
      · simp [hTurn, created?, hOrder, hCreate, Except.toOption]
      · simp [hTurn, created?, hOrder, hCreate, Except.toOption]
  | script =>
      obtain ⟨_, _, _, rfl, hTurn⟩ := r.prompt.submit_eq h compile (Order.trim_ne_empty hOrder)
      simp [hTurn, sent]

theorem context_turn : (r.turn h compile).prompt.context =
    (r.created? h).getD r.prompt.context := by
  unfold turn
  rw [Prompt.turn_eq]
  cases hOrder : Order.of r.line with
  | blank => simp [created?, hOrder]
  | exit => simp [created?, hOrder]
  | help => simp [created?, hOrder]
  | clear => simp [created?, hOrder]
  | history => simp [created?, hOrder]
  | reset =>
      obtain ⟨e, host, hCreate, hTurn⟩ | ⟨c, host, _, _, _, hCreate, _, hTurn⟩ :=
        r.prompt.reset_eq h
      · simp [hTurn, created?, hOrder, hCreate, Except.toOption]
      · simp [hTurn, created?, hOrder, hCreate, Except.toOption]
  | script =>
      obtain ⟨_, _, _, _, hTurn⟩ := r.prompt.submit_eq h compile (Order.trim_ne_empty hOrder)
      simp [hTurn, created?, hOrder]

/-- What the steps of a round make of a session that listens to its context: the log takes the
messages of the round, unless it is emptied. -/
theorem after_steps {s : Session} (hOwner : s.owner = some r.prompt.context)
    (hFresh : ∀ c, r.created? h = some c → c ≠ r.prompt.context) :
    (s.after (r.steps h compile)).owner = some ((r.created? h).getD r.prompt.context) ∧
    (s.after (r.steps h compile)).log =
      (if Order.of r.line = .clear ∨ (r.created? h).isSome then [] else s.log) ++
        r.messages h compile := by
  cases hOrder : Order.of r.line with
  | blank => simp [steps, messages, created?, hOrder, hOwner]
  | exit => simp [steps, messages, created?, hOrder, hOwner]
  | help => simp [steps, messages, created?, hOrder, hOwner]
  | history => simp [steps, messages, created?, hOrder, hOwner]
  | clear =>
      simp [steps, messages, created?, hOrder, hOwner, Session.Step.apply, Session.clear]
  | reset =>
      cases hCreated : r.created? h with
      | none => simp [steps, messages, hOrder, hCreated, hOwner, Session.after]
      | some c =>
          -- what the replaced context hands out comes after the new one has been attached
          have hStale : (Session.Step.apply s (.attach c)).owner ≠ some r.prompt.context := by
            simpa [Session.Step.apply, Session.attach] using hFresh c hCreated
          simp only [steps, hOrder, hCreated, messages, Option.toList_some, List.flatMap_cons,
            List.flatMap_nil, List.append_nil, Session.after_cons, after_receive_of_ne hStale]
          simp [Session.Step.apply, Session.attach]
  | script =>
      have hSubmitted : (Session.Step.apply s (.submit compile r.line)).owner =
          some r.prompt.context := by
        simp [Session.owner_apply, Session.Step.owner?, hOwner]
      have hLog : (Session.Step.apply s (.submit compile r.line)).log =
          s.log ++ [.command (trim r.line)] := by
        simp [Session.log_apply, Session.Step.restarts, Session.Step.contribution,
          Session.submitted?, Order.trim_ne_empty hOrder]
      simp [steps, messages, created?, hOrder, Session.after_cons,
        after_receive_of_owner hSubmitted, hSubmitted, hLog]

section Settled

variable {h compile r} (hSettled : r.prompt.Settled)
  (hFresh : ∀ c, r.created? h = some c → c ≠ r.prompt.context)

include hSettled hFresh

theorem log_turn : (r.turn h compile).prompt.session.log =
    (if Order.of r.line = .clear ∨ (r.created? h).isSome then [] else r.prompt.session.log) ++
      r.messages h compile := by
  rw [session_turn, (after_steps h compile r hSettled.owner hFresh).2]

/-- A round shows what the console says to the line and then the messages that the line has
brought, each on a line of its own. -/
theorem shown_turn : shownTexts (r.turn h compile).output =
    (r.answer h ++ (r.messages h compile).map Message.line).map (· ++ "\n") := by
  have hLog : (r.turn h compile).prompt.session.log = _ := log_turn hSettled hFresh
  revert hLog
  unfold turn answer messages
  rw [Prompt.turn_eq]
  cases hOrder : Order.of r.line with
  | blank => simp [shownTexts]
  | exit => simp [shownTexts]
  | help => simp
  | clear => simp
  | history => simp
  | reset =>
      intro _
      obtain ⟨e, host, hCreate, hTurn⟩ | ⟨c, host, _, _, hNotes, hCreate, _, hTurn⟩ :=
        r.prompt.reset_eq h
      · simp [hTurn, created?, hOrder, hCreate, Except.toOption, shownTexts]
      · simp [hTurn, created?, hOrder, hCreate, Except.toOption, hNotes]
  | script =>
      obtain ⟨session, _, hNotes, _, hTurn⟩ :=
        r.prompt.submit_eq h compile (Order.trim_ne_empty hOrder)
      intro hLog
      -- the counter stands at the end of what the log was before
      have hNew : session.log.drop r.prompt.printed =
          .command (trim r.line) :: (r.sent h compile).filterMap Message.read? := by
        have hWhole : session.log = r.prompt.session.log ++
            .command (trim r.line) :: (r.sent h compile).filterMap Message.read? := by
          simpa [hTurn, hOrder, created?] using hLog
        rw [hWhole, hSettled.printed, List.drop_left]
      simp only [hTurn, shownTexts_append, hNotes, hNew, shownTexts_map_shownLine, if_true,
        List.nil_append]

/-- The counter is the length of the log again, and the session listens to the context that is
current now. -/
theorem settled_turn : (r.turn h compile).prompt.Settled := by
  have hLog : (r.turn h compile).prompt.session.log = _ := log_turn hSettled hFresh
  have hOwner : (r.turn h compile).prompt.session.owner =
      some ((r.created? h).getD r.prompt.context) := by
    rw [session_turn, (after_steps h compile r hSettled.owner hFresh).1]
  revert hLog hOwner
  unfold turn messages
  rw [Prompt.turn_eq]
  cases hOrder : Order.of r.line with
  | blank => exact fun _ _ => hSettled
  | exit => exact fun _ _ => hSettled
  | help => exact fun _ _ => hSettled
  | history => exact fun _ _ => hSettled
  | clear => exact fun _ _ => ⟨rfl, hSettled.owner⟩
  | reset =>
      intro hLog hOwner
      obtain ⟨e, host, _, hTurn⟩ | ⟨c, host, session, _, _, hCreate, _, hTurn⟩ :=
        r.prompt.reset_eq h
      · rw [hTurn]
        exact ⟨hSettled.printed, hSettled.owner⟩
      · have hCreated : r.created? h = some c := by
          simp [created?, hOrder, hCreate, Except.toOption]
        simp only [hTurn, hCreated] at hLog hOwner ⊢
        exact ⟨by simp at hLog; simp [hLog], hOwner⟩
  | script =>
      intro _ hOwner
      obtain ⟨session, _, _, _, hTurn⟩ :=
        r.prompt.submit_eq h compile (Order.trim_ne_empty hOrder)
      simp only [hTurn] at hOwner ⊢
      exact ⟨rfl, by simpa [created?, hOrder] using hOwner⟩

end Settled

end Round

/-! ## What steps contribute -/

namespace Session

theorem run_append (past steps : List Step) : run (past ++ steps) = (run past).after steps :=
  List.foldl_append ..

theorem contributions_append (past first second : List Step) :
    contributions past (first ++ second) =
      contributions past first ++ contributions (past ++ first) second := by
  induction first generalizing past with
  | nil => simp [contributions]
  | cons step first ih => simp [contributions, ih]

/-- Rows of steps of which each contributes what `g` says contribute all of that together. -/
theorem contributions_flatMap {α : Type} {f : α → List Step} {g : α → List Message}
    {past : List Step} {rows : List α}
    (hEach : ∀ before row after, rows = before ++ row :: after →
      contributions (past ++ before.flatMap f) (f row) = g row) :
    contributions past (rows.flatMap f) = rows.flatMap g := by
  induction rows generalizing past with
  | nil => rfl
  | cons first rows ih =>
      have hFirst : contributions past (f first) = g first := by
        simpa using hEach [] first rows rfl
      have hRest : contributions (past ++ f first) (rows.flatMap f) = rows.flatMap g :=
        ih fun before row after hEq => by
          simpa using hEach (first :: before) row after (by rw [hEq, List.cons_append])
      rw [List.flatMap_cons, contributions_append, hFirst, hRest, List.flatMap_cons]

/-- Payloads contribute what can be read of them if their context is listened to. -/
theorem contributions_receive (past : List Step) (source : ContextId) (payloads : List Json) :
    contributions past (payloads.map (.receive source)) =
      if listening past = some source then payloads.filterMap Message.read? else [] := by
  induction payloads generalizing past with
  | nil => simp [contributions]
  | cons p ps ih =>
      have hSame : listening (past ++ [.receive source p]) = listening past := by
        rw [listening_concat]
        rfl
      simp only [List.map_cons, contributions, ih, hSame, Step.contribution]
      split
      · simp only [List.filterMap_cons, Message.read?]
        cases (Message.decode p).toOption <;> rfl
      · rfl

end Session

namespace Round

variable {ω : Type} (h : Host ω) (compile : Compiler) (r : Round ω)

theorem eq_context_of_receive_mem {source : ContextId} {payload : Json}
    (hMem : .receive source payload ∈ r.steps h compile) : source = r.prompt.context := by
  unfold steps at hMem
  cases hOrder : Order.of r.line <;> simp_all

/-- A round that replaces the context brings no message. -/
theorem messages_of_created (hCreated : (r.created? h).isSome) : r.messages h compile = [] := by
  unfold created? at hCreated
  split at hCreated
  · next hOrder => simp [messages, hOrder]
  · simp at hCreated

/-- What the steps of a round contribute to the log are its messages: the context that a reset
replaces is not listened to any more when it is asked. -/
theorem contributions_steps {past : List Session.Step}
    (hOwner : Session.listening past = some r.prompt.context)
    (hFresh : ∀ c, r.created? h = some c → c ≠ r.prompt.context) :
    Session.contributions past (r.steps h compile) = r.messages h compile := by
  unfold steps messages
  cases hOrder : Order.of r.line with
  | blank => simp [Session.contributions]
  | exit => simp [Session.contributions]
  | help => simp [Session.contributions]
  | history => simp [Session.contributions]
  | clear => simp [Session.contributions, Session.Step.contribution]
  | reset =>
      cases hCreated : r.created? h with
      | none => simp [Session.contributions]
      | some c =>
          have hStale : Session.listening (past ++ [.attach c]) ≠ some r.prompt.context := by
            rw [Session.listening_concat]
            simpa [Session.Step.owner?] using hFresh c hCreated
          simp [Session.contributions, Session.Step.contribution, Session.contributions_receive,
            hStale]
  | script =>
      have hSame : Session.listening (past ++ [.submit compile r.line]) =
          some r.prompt.context := by
        rw [Session.listening_concat]
        exact hOwner
      simp [Session.contributions, Session.Step.contribution, Session.contributions_receive,
        hSame, Session.submitted?, Order.trim_ne_empty hOrder]

end Round

/-! ## All rounds -/

namespace Prompt

variable {ω : Type} {h : Host ω} {compile : Compiler} {p : Prompt ω} {line : String}
  {lines : List (Option String)}

theorem contexts_of_ending_eq_none (hGoes : (p.turn h compile line).ending = none) :
    p.contexts h compile (some line :: lines) =
      p.context :: ((Round.created? h ⟨p, line⟩).toList ++
        ((p.turn h compile line).prompt.rounds h compile lines).filterMap (Round.created? h)) := by
  simp only [contexts, rounds, hGoes, List.filterMap_cons]
  cases Round.created? h ⟨p, line⟩ <;> rfl

/-- The contexts of the rest of a conversation are among those of all of it. -/
theorem contexts_turn_sublist (hGoes : (p.turn h compile line).ending = none) :
    ((p.turn h compile line).prompt.contexts h compile lines).Sublist
      (p.contexts h compile (some line :: lines)) := by
  have hContext := Round.context_turn h compile ⟨p, line⟩
  simp only [Round.turn] at hContext
  rw [contexts_of_ending_eq_none hGoes, contexts, hContext]
  cases Round.created? h ⟨p, line⟩ with
  | none => simp
  | some c => simp

/-- A new context is another one than the current one. -/
theorem created_ne_context (hDistinct : (p.contexts h compile (some line :: lines)).Nodup) :
    ∀ c, Round.created? h ⟨p, line⟩ = some c → c ≠ p.context := by
  intro c hCreated hSame
  simp [contexts, rounds, hCreated, hSame] at hDistinct

theorem context_mem_contexts {r : Round ω} (hMem : r ∈ p.rounds h compile lines) :
    r.prompt.context ∈ p.contexts h compile lines := by
  induction lines generalizing p with
  | nil => simp [rounds] at hMem
  | cons first lines ih =>
      cases first with
      | none => simp [rounds] at hMem
      | some line =>
          rw [rounds, List.mem_cons] at hMem
          obtain rfl | hMem := hMem
          · exact List.mem_cons_self ..
          · split at hMem
            · simp at hMem
            · next hGoes => exact (contexts_turn_sublist hGoes).subset (ih hMem)

/-- Every round of a conversation begins with a settled prompt, whose session is that of the steps
so far; and once its context has been replaced it does not come back. -/
theorem rounds_spec {past : List Session.Step} (hSettled : p.Settled)
    (hSession : p.session = Session.run past) (hDistinct : (p.contexts h compile lines).Nodup)
    {before after : List (Round ω)} {r : Round ω}
    (hSplit : p.rounds h compile lines = before ++ r :: after) :
    r.prompt.Settled ∧
    r.prompt.session = Session.run (past ++ before.flatMap (Round.steps h compile)) ∧
    (∀ c, r.created? h = some c → c ≠ r.prompt.context) ∧
    ((r.created? h).isSome → ∀ later ∈ after, later.prompt.context ≠ r.prompt.context) := by
  induction lines generalizing p past before with
  | nil => simp [rounds] at hSplit
  | cons first lines ih =>
      cases first with
      | none => simp [rounds] at hSplit
      | some line =>
          have hFresh := created_ne_context hDistinct
          rw [rounds] at hSplit
          cases before with
          | nil =>
              simp only [List.nil_append, List.cons.injEq] at hSplit
              obtain ⟨rfl, hAfter⟩ := hSplit
              refine ⟨hSettled, by simpa using hSession, hFresh, fun hCreated later hLater => ?_⟩
              rw [← hAfter] at hLater
              split at hLater
              · simp at hLater
              · next hGoes =>
                  -- the contexts from here on are those behind the current one
                  have hIn := context_mem_contexts hLater
                  have hContext := Round.context_turn h compile ⟨p, line⟩
                  rw [contexts_of_ending_eq_none hGoes] at hDistinct
                  obtain ⟨c, hCreated⟩ := Option.isSome_iff_exists.mp hCreated
                  simp only [Round.turn, hCreated, Option.getD_some] at hContext
                  rw [contexts, hContext] at hIn
                  intro hSame
                  exact (List.nodup_cons.mp hDistinct).1 (by simpa [hCreated, hSame] using hIn)
          | cons first before =>
              simp only [List.cons_append, List.cons.injEq] at hSplit
              obtain ⟨rfl, hRest⟩ := hSplit
              split at hRest
              · simp at hRest
              · next hGoes =>
                  have hNext : (p.turn h compile line).prompt.session =
                      Session.run (past ++ Round.steps h compile ⟨p, line⟩) := by
                    rw [Session.run_append, ← hSession]
                    exact Round.session_turn h compile ⟨p, line⟩
                  have hSub := hDistinct.sublist (contexts_turn_sublist hGoes)
                  have hRest := ih (Round.settled_turn (r := ⟨p, line⟩) hSettled hFresh) hNext hSub
                    hRest
                  simpa using hRest

/-- What a round contributes to the log, after all rounds in front of it, are its messages. -/
theorem contributions_round (hSettled : p.Settled)
    (hSession : p.session = Session.run [.attach p.context])
    (hDistinct : (p.contexts h compile lines).Nodup) {before after : List (Round ω)} {r : Round ω}
    (hSplit : p.rounds h compile lines = before ++ r :: after) :
    Session.contributions (.attach p.context :: before.flatMap (Round.steps h compile))
      (r.steps h compile) = r.messages h compile := by
  obtain ⟨hRound, hPast, hFresh, -⟩ := rounds_spec hSettled hSession hDistinct hSplit
  have hOwner : Session.listening (.attach p.context :: before.flatMap (Round.steps h compile)) =
      some r.prompt.context := by
    rw [← Session.owner_run, ← hRound.owner, hPast, List.singleton_append]
  exact r.contributions_steps h compile hOwner hFresh

theorem unanswered_of_ending {e : Ending} (hEnding : (p.turn h compile line).ending = some e) :
    unanswered (some e) = [] := by
  rw [turn_eq] at hEnding
  cases hOrder : Order.of line with
  | exit =>
      simp only [hOrder, Option.some.injEq] at hEnding
      simp [← hEnding, unanswered]
  | reset =>
      obtain ⟨_, _, _, hTurn⟩ | ⟨_, _, _, _, _, _, _, hTurn⟩ := p.reset_eq h
      · simp only [hOrder, hTurn, Option.some.injEq] at hEnding
        simp [← hEnding, unanswered]
      · simp [hOrder, hTurn] at hEnding
  | script =>
      obtain ⟨_, _, _, _, hTurn⟩ := p.submit_eq h compile (Order.trim_ne_empty hOrder)
      simp [hOrder, hTurn] at hEnding
  | blank => simp [hOrder] at hEnding
  | help => simp [hOrder] at hEnding
  | clear => simp [hOrder] at hEnding
  | history => simp [hOrder] at hEnding

theorem shown_run (hSettled : p.Settled) (hDistinct : (p.contexts h compile lines).Nodup) :
    shownTexts (p.run h compile lines).1 =
      (p.rounds h compile lines).flatMap (Round.shown h compile) ++
        unanswered (p.run h compile lines).2.1 := by
  induction lines generalizing p with
  | nil => rfl
  | cons first lines ih =>
      cases first with
      | none => rfl
      | some line =>
          have hFresh := created_ne_context hDistinct
          have hTurn : shownTexts (.shown promptText :: (p.turn h compile line).output) =
              Round.shown h compile ⟨p, line⟩ :=
            congrArg (promptText :: ·) (Round.shown_turn (r := ⟨p, line⟩) hSettled hFresh)
          simp only [run, rounds]
          cases hEnding : (p.turn h compile line).ending with
          | some e => simp [hTurn, unanswered_of_ending hEnding]
          | none =>
              have hRest := ih (Round.settled_turn (r := ⟨p, line⟩) hSettled hFresh)
                (hDistinct.sublist (contexts_turn_sublist hEnding))
              simp only [shownTexts_append, hTurn]
              rw [List.flatMap_cons, List.append_assoc]
              exact congrArg _ hRest

end Prompt

/-- A conversation shows each message once, in the round that brings it, and none that comes from a
context that has been replaced. -/
structure ShowsEachOnce {ω : Type} (h : Host ω) (compile : Compiler) (p : Prompt ω)
    (lines : List (Option String)) (output : List Output) (ending : Option Ending) : Prop where
  /-- Round by round: the invitation, what the console says to the line, the messages. -/
  shown : shownTexts output =
    (banner ++ "\n") :: (p.rounds h compile lines).flatMap (Round.shown h compile) ++
      unanswered ending
  /-- The steps of the rounds are what happens to the session, and each round's messages are what
  its own steps contribute to the log. -/
  appended : ∀ before r after, p.rounds h compile lines = before ++ r :: after →
    r.prompt.session =
      Session.run (.attach p.context :: before.flatMap (Round.steps h compile)) ∧
    (r.turn h compile).prompt.session = r.prompt.session.after (r.steps h compile) ∧
    Session.contributions (.attach p.context :: before.flatMap (Round.steps h compile))
      (r.steps h compile) = r.messages h compile
  /-- All that ever goes to the log. -/
  total : Session.contributions []
      (.attach p.context :: (p.rounds h compile lines).flatMap (Round.steps h compile)) =
    (p.rounds h compile lines).flatMap (Round.messages h compile)
  /-- What a context still holds when it is replaced comes to nothing: the round brings no message,
  and the context is not asked again. -/
  stale : ∀ before r after, p.rounds h compile lines = before ++ r :: after →
    (r.created? h).isSome → r.messages h compile = [] ∧
      ∀ later ∈ after, ∀ payload, .receive r.prompt.context payload ∉ later.steps h compile

/-- A conversation begins with a settled prompt, and with an empty log. -/
theorem Prompt.settled_start {ω : Type} {h : Host ω} {host : ω} {p : Prompt ω}
    (hStart : (Prompt.start h host).1 = .ok p) :
    p.Settled ∧ p.session = Session.run [.attach p.context] := by
  unfold Prompt.start at hStart
  split at hStart
  · simp at hStart
  · simp only [Except.ok.injEq] at hStart
    subst hStart
    exact ⟨⟨rfl, rfl⟩, rfl⟩

/-- What is said in front of the first line. -/
theorem runConsole_of_start {ω : Type} {h : Host ω} {host : ω} {p : Prompt ω}
    (hStart : (Prompt.start h host).1 = .ok p) (compile : Compiler) (input : List UInt8) :
    runConsole h compile host input =
      (shownLine banner :: (p.run h compile ((inputLines input).map lineText)).1,
        (p.run h compile ((inputLines input).map lineText)).2) := by
  unfold runConsole
  rw [show Prompt.start h host = (.ok p, (Prompt.start h host).2) from Prod.ext hStart rfl]

/-- All rounds of a conversation together, if its prompt is settled and no context comes back. -/
theorem Prompt.showsEachOnce_run {ω : Type} {h : Host ω} {compile : Compiler} {p : Prompt ω}
    {lines : List (Option String)} (hSettled : p.Settled)
    (hSession : p.session = Session.run [.attach p.context])
    (hDistinct : (p.contexts h compile lines).Nodup) :
    ShowsEachOnce h compile p lines (shownLine banner :: (p.run h compile lines).1)
      (p.run h compile lines).2.1 := by
  have hContributes := fun before r after (hEq : p.rounds h compile lines = before ++ r :: after) =>
    contributions_round hSettled hSession hDistinct hEq
  refine ⟨?_, fun before r after hEq => ?_, ?_, fun before r after hEq hCreated => ?_⟩
  · rw [List.cons_append, ← Prompt.shown_run hSettled hDistinct]
    rfl
  · exact ⟨(rounds_spec hSettled hSession hDistinct hEq).2.1, r.session_turn h compile,
      hContributes before r after hEq⟩
  · have hAll : Session.contributions [.attach p.context] _ = _ :=
      Session.contributions_flatMap hContributes
    simpa [Session.contributions, Session.Step.contribution] using hAll
  · obtain ⟨_, _, _, hGone⟩ := rounds_spec hSettled hSession hDistinct hEq
    refine ⟨r.messages_of_created h compile hCreated, fun later hLater payload hMem => ?_⟩
    exact hGone hCreated later hLater (later.eq_context_of_receive_mem h compile hMem).symm

/-- **Each message is shown exactly once.**  Whatever the compiler answers and the contexts do, if
no two contexts of the conversation are the same, then the console shows every message that was
ever appended to the log of its session, in the round that has appended it and in the order of the
log: the echo of the line, then what can be read of the payloads.  Commands of the console, failed
scripts and failed drains neither lose nor repeat one, and what a replaced context has left is
not shown. -/
theorem runConsole_showsEachOnce {ω : Type} (h : Host ω) (compile : Compiler) (host : ω)
    (input : List UInt8) (p : Prompt ω) (hStart : (Prompt.start h host).1 = .ok p)
    (hDistinct : (p.contexts h compile ((inputLines input).map lineText)).Nodup) :
    ShowsEachOnce h compile p ((inputLines input).map lineText)
      (runConsole h compile host input).1 (runConsole h compile host input).2.1 := by
  obtain ⟨hSettled, hSession⟩ := Prompt.settled_start hStart
  rw [runConsole_of_start hStart]
  exact Prompt.showsEachOnce_run hSettled hSession hDistinct

/-- The state of contexts that answer from a script: how many there are, how many lines have been
run, and what waits for which context. -/
structure Rehearsal where
  created : Nat := 0
  ran : Nat := 0
  waiting : List (ContextId × Json) := []

/-- Contexts that answer each line with a message and with something that is none.  The first line
fails, and what the second one brings cannot be read until the next context has been created. -/
def rehearsedHost : Host Rehearsal where
  create s := (.ok ⟨s.created + 1⟩, { s with created := s.created + 1 })
  run c _ s :=
    (if s.ran = 0 then .error "stopped" else .ok (),
      { s with
        ran := s.ran + 1
        waiting := s.waiting ++
          [(c, .object [("method", .string "log"), ("data", .int s.ran)]), (c, .null)] })
  drain c s :=
    if s.created = 1 ∧ s.ran = 2 then (.error "not now", s)
    else
      (.ok ((s.waiting.filter (·.1 = c)).map (·.2)),
        { s with waiting := s.waiting.filter (·.1 ≠ c) })

/-- A prompt whose first context has just been created. -/
def rehearsedPrompt : Prompt Rehearsal where
  host := { created := 1 }
  context := ⟨1⟩
  session := { owner := some ⟨1⟩ }

/-- Three scripts, with a clearing behind the first and a reset behind the second. -/
def rehearsedInput : List UInt8 := Utf8.encode "a\n.clear\nb\n.reset\n c \n.history".toList

theorem runConsole_showsEachOnce_rehearsed :
    (Prompt.start rehearsedHost {}).1 = .ok rehearsedPrompt ∧
    (rehearsedPrompt.contexts rehearsedHost (fun request => { javascript := request.source })
      ((inputLines rehearsedInput).map lineText)).Nodup ∧
    ShowsEachOnce rehearsedHost (fun request => { javascript := request.source }) rehearsedPrompt
      ((inputLines rehearsedInput).map lineText)
      (runConsole rehearsedHost (fun request => { javascript := request.source }) {}
        rehearsedInput).1
      (runConsole rehearsedHost (fun request => { javascript := request.source }) {}
        rehearsedInput).2.1 :=
  have hDistinct : (rehearsedPrompt.contexts rehearsedHost
      (fun request => { javascript := request.source })
      ((inputLines rehearsedInput).map lineText)).Nodup := by decide +kernel
  ⟨rfl, hDistinct, runConsole_showsEachOnce rehearsedHost _ {} rehearsedInput rehearsedPrompt rfl
    hDistinct⟩

end PagePreview.Console
