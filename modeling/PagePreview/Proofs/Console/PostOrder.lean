import Mathlib.Data.List.Basic
import PagePreview.Console.Execution
import PagePreview.Proofs.Json.QuotedText

/-!
# Messages in the order they were posted

The messages of an execution context wait in two places.  Scripts and jobs
post into the outbox, and when a command throws, the outbox is moved to the
list that the context keeps, with a record of the throw behind it.  Whatever
is kept is therefore older than the outbox, and draining takes both in that
order.

An engine is taken here with a view of its outbox and of everything that was
ever posted (`Mailbox`).  What happens while a context is served is told by
its `history`: the messages as they are posted, and each throw of a command
at its place.  One operation adds its own events to what has been drained, to
what is kept and to the outbox, taken together (`Operation.account`), so a row
of operations hands out, keeps and leaves in the outbox exactly its history:
`serve_keepsPostOrder`.
-/

namespace PagePreview.Console

variable {ε α : Type}

/-! ## Engines with an outbox -/

/-- A text from which nothing but these messages can be read. -/
def Denotes (text : String) (messages : List Json) : Prop :=
  ∀ read, Json.readWhole Json.anySequence text = .ok read → read = messages

/-- From one state to another some messages were posted, and they were put behind the ones that
waited. -/
def Posts (waiting posted : ε → List Json) (e e' : ε) : Prop :=
  ∃ new, posted e' = posted e ++ new ∧ waiting e' = waiting e ++ new

/-- From one state to another the outbox was emptied. Messages that were posted meanwhile wait
alone. -/
def Empties (waiting posted : ε → List Json) (e e' : ε) : Prop :=
  ∃ new, posted e' = posted e ++ new ∧ waiting e' = new

/-- An engine whose scripts and jobs append what they post to an outbox. Scripts can do anything
to an engine, so this is about the fair ones, in states in which the outbox is in its place. -/
structure Mailbox (g : ScriptEngine ε α) where
  /-- The messages that wait in the outbox. -/
  waiting : ε → List Json
  /-- All messages that were posted so far. -/
  posted : ε → List Json
  intact : ε → Prop
  fair : String → Prop
  evaluate : ∀ {e source}, intact e → fair source →
    intact (g.evaluate source e).2 ∧ Posts waiting posted e (g.evaluate source e).2
  runJobs : ∀ {e}, intact e →
    intact (g.runJobs e).2 ∧ Posts waiting posted e (g.runJobs e).2
  textOf : ∀ {e} v, intact e →
    intact (g.textOf v e).2 ∧ Posts waiting posted e (g.textOf v e).2
  /-- The script that empties the outbox gives the messages as JSON. -/
  read : ∀ {e e' v}, intact e → g.evaluate readingScript e = (.ok v, e') →
    intact e' ∧ Empties waiting posted e e' ∧
      ∀ text e'', g.textOf v e' = (.ok text, e'') → Denotes text (waiting e)

section Views

variable {waiting posted : ε → List Json} {e e' e'' : ε}

theorem Posts.refl (e : ε) : Posts waiting posted e e := ⟨[], by simp, by simp⟩

theorem Posts.trans (h : Posts waiting posted e e') (h' : Posts waiting posted e' e'') :
    Posts waiting posted e e'' := by
  obtain ⟨new, hPosted, hWaiting⟩ := h
  obtain ⟨new', hPosted', hWaiting'⟩ := h'
  refine ⟨new ++ new', ?_, ?_⟩
  · rw [hPosted', hPosted, List.append_assoc]
  · rw [hWaiting', hWaiting, List.append_assoc]

theorem Empties.trans (h : Empties waiting posted e e') (h' : Posts waiting posted e' e'') :
    Empties waiting posted e e'' := by
  obtain ⟨new, hPosted, hWaiting⟩ := h
  obtain ⟨new', hPosted', hWaiting'⟩ := h'
  refine ⟨new ++ new', ?_, ?_⟩
  · rw [hPosted', hPosted, List.append_assoc]
  · rw [hWaiting', hWaiting]

end Views

/-! ## What happens to a context -/

/-- Something that is done with a context. -/
inductive Operation where
  | evaluate (source scriptName : String)
  | run (script : String)
  | drain

/-- The script that an operation is given. -/
def Operation.script? : Operation → Option String
  | evaluate source _ => some source
  | run script => some script
  | drain => none

/-- A context, and all messages that were drained from it. -/
structure Served (ε : Type) where
  context : ExecutionContext ε
  drained : List Json := []

/-- What an operation does, and why it could not be done, if it failed. -/
def Operation.outcome (g : ScriptEngine ε α) (s : Served ε) :
    Operation → Option ExecutionFault × Served ε
  | evaluate source scriptName =>
    match s.context.evaluate g source scriptName with
    | (.error fault, context) => (some fault, { s with context })
    | (.ok _, context) => (none, { s with context })
  | run script =>
    match s.context.run g script with
    | (.error fault, context) => (some fault, { s with context })
    | (.ok (), context) => (none, { s with context })
  | drain =>
    match s.context.drain g with
    | (.error fault, context) => (some fault, { s with context })
    | (.ok messages, context) => (none, ⟨context, s.drained ++ messages⟩)

/-- A context after an operation. -/
def Operation.apply (g : ScriptEngine ε α) (s : Served ε) (op : Operation) : Served ε :=
  (op.outcome g s).2

/-- The outbox could not be read, or what was read is no list. -/
def ExecutionFault.IsReading : ExecutionFault → Prop
  | reading _ | notList _ => True
  | _ => False

/-- A context after some operations. -/
def serve (g : ScriptEngine ε α) (s : Served ε) (ops : List Operation) : Served ε :=
  ops.foldl (Operation.apply g) s

/-- Whatever else fails, the outbox is read without a fault. -/
def ReadsThroughout (g : ScriptEngine ε α) : Served ε → List Operation → Prop
  | _, [] => True
  | s, op :: ops =>
    (∀ fault, (op.outcome g s).1 = some fault → ¬ fault.IsReading) ∧
      ReadsThroughout g (op.apply g s) ops

/-- What the script of a command has thrown, and the state of the engine at that moment. -/
def Operation.throw? (g : ScriptEngine ε α) (s : Served ε) : Operation → Option (String × ε)
  | run script =>
    match g.evaluate script s.context.engine with
    | (.error thrown, engine) => some (thrown, engine)
    | (.ok _, _) => none
  | evaluate _ _ | drain => none

/-- What the commands among some operations have thrown. -/
def thrownBy (g : ScriptEngine ε α) (s : Served ε) : List Operation → List String
  | [] => []
  | op :: ops =>
    ((op.throw? g s).map Prod.fst).toList ++ thrownBy g (op.apply g s) ops

inductive Event where
  | posted (message : Json)
  /-- A command has thrown. -/
  | threw (thrown : String)

/-- What is handed out for an event. -/
def Event.record : Event → Json
  | posted message => message
  | threw thrown => errorRecord thrown

def Event.message? : Event → Option Json
  | posted message => some message
  | threw _ => none

def Event.thrown? : Event → Option String
  | posted _ => none
  | threw thrown => some thrown

namespace Mailbox

variable {g : ScriptEngine ε α} (b : Mailbox g)

/-- The messages that were posted from one state to another. -/
def between (e e' : ε) : List Event := ((b.posted e').drop (b.posted e).length).map .posted

/-- What happens during an operation. -/
def events (s : Served ε) (op : Operation) : List Event :=
  let before := s.context.engine
  let after := (op.apply g s).context.engine
  match op.throw? g s with
  | some (thrown, engine) => b.between before engine ++ .threw thrown :: b.between engine after
  | none => b.between before after

/-- What happens during some operations. -/
def history (s : Served ε) : List Operation → List Event
  | [] => []
  | op :: ops => b.events s op ++ history (op.apply g s) ops

/-- All messages of a context that are known: those that were drained, those that are kept and
those that wait. -/
def known (s : Served ε) : List Json :=
  s.drained ++ s.context.pending ++ b.waiting s.context.engine

end Mailbox

/-! ## The parts of an operation -/

section Parts

variable {g : ScriptEngine ε α} (b : Mailbox g) {c : ExecutionContext ε} {e e' : ε}

theorem isReading_of_takeOutbox {fault : ExecutionFault}
    (h : ExecutionContext.takeOutbox g e = (.error fault, e')) : fault.IsReading := by
  unfold ExecutionContext.takeOutbox at h
  split at h
  · cases h
    trivial
  · split at h
    · cases h
      trivial
    · split at h
      · cases h
        trivial
      · cases h

/-- What is read out of the outbox is what has waited there. -/
theorem takeOutbox_eq_ok {messages : List Json} (hIntact : b.intact e)
    (h : ExecutionContext.takeOutbox g e = (.ok messages, e')) :
    messages = b.waiting e ∧ b.intact e' ∧ Empties b.waiting b.posted e e' := by
  unfold ExecutionContext.takeOutbox at h
  split at h
  · cases h
  · next v engine hRead =>
      obtain ⟨hRead', hEmpties, hDenotes⟩ := b.read hIntact hRead
      split at h
      · cases h
      · next text engine' hText =>
          obtain ⟨hIntact', hPosts⟩ := b.textOf v hRead'
          rw [hText] at hIntact' hPosts
          split at h
          · cases h
          · next read hJson =>
              cases h
              exact ⟨hDenotes text e' hText messages hJson, hIntact', hEmpties.trans hPosts⟩

/-- A script that is evaluated posts into the outbox, and so do its jobs. -/
theorem evaluate_posts {source : String} (hIntact : b.intact c.engine) (hFair : b.fair source)
    (scriptName : String) :
    (c.evaluate g source scriptName).2.pending = c.pending ∧
      b.intact (c.evaluate g source scriptName).2.engine ∧
      Posts b.waiting b.posted c.engine (c.evaluate g source scriptName).2.engine := by
  obtain ⟨hScript, hPosts⟩ := b.evaluate hIntact hFair
  unfold ExecutionContext.evaluate
  split
  · next hValue =>
      rw [hValue] at hScript hPosts
      exact ⟨rfl, hScript, hPosts⟩
  · next v engine hValue =>
      rw [hValue] at hScript hPosts
      obtain ⟨hJobs, hPostsJobs⟩ := b.runJobs hScript
      split
      · next hRun =>
          rw [hRun] at hJobs hPostsJobs
          exact ⟨rfl, hJobs, hPosts.trans hPostsJobs⟩
      · next engine hRun =>
          rw [hRun] at hJobs hPostsJobs
          obtain ⟨hText, hPostsText⟩ := b.textOf v hJobs
          split
          · exact ⟨rfl, hJobs, hPosts.trans hPostsJobs⟩
          · split
            · next hShown =>
                rw [hShown] at hText hPostsText
                exact ⟨rfl, hText, (hPosts.trans hPostsJobs).trans hPostsText⟩
            · next hShown =>
                rw [hShown] at hText hPostsText
                exact ⟨rfl, hText, (hPosts.trans hPostsJobs).trans hPostsText⟩

theorem run_of_ok {script : String} {v : α} (h : g.evaluate script c.engine = (.ok v, e)) :
    (c.run g script).2 = { c with engine := (g.runJobs e).2 } := by
  simp only [ExecutionContext.run, h]
  split
  · next hRun => rw [hRun]
  · next hRun => rw [hRun]

theorem run_of_throw {script thrown : String} {earlier : List Json}
    (h : g.evaluate script c.engine = (.error thrown, e))
    (hRead : ExecutionContext.takeOutbox g e = (.ok earlier, e')) :
    (c.run g script).2 = { c with
      engine := (g.runJobs e').2
      pending := c.pending ++ earlier ++ [errorRecord thrown] } := by
  simp only [ExecutionContext.run, h, hRead]
  split
  · next hRun => rw [hRun]
  · next hRun => rw [hRun]

theorem run_of_unread {script thrown : String} {fault : ExecutionFault}
    (h : g.evaluate script c.engine = (.error thrown, e))
    (hRead : ExecutionContext.takeOutbox g e = (.error fault, e')) :
    c.run g script = (.error fault, { c with engine := e' }) := by
  simp only [ExecutionContext.run, h, hRead]

theorem exists_takeOutbox_of_run {fault : ExecutionFault} {script : String}
    {c' : ExecutionContext ε} (h : c.run g script = (.error fault, c'))
    (hReading : fault.IsReading) :
    ∃ e e', ExecutionContext.takeOutbox g e = (.error fault, e') := by
  cases hValue : g.evaluate script c.engine with
  | mk result e =>
      cases result with
      | ok v =>
          simp only [ExecutionContext.run, hValue] at h
          split at h
          · cases h
            exact hReading.elim
          · cases h
      | error thrown =>
          cases hTaken : ExecutionContext.takeOutbox g e with
          | mk taken e' =>
              cases taken with
              | error fault' =>
                  rw [run_of_unread hValue hTaken] at h
                  cases h
                  exact ⟨e, e', hTaken⟩
              | ok earlier =>
                  simp only [ExecutionContext.run, hValue, hTaken] at h
                  split at h
                  · cases h
                    exact hReading.elim
                  · cases h

theorem not_isReading_of_evaluate {fault : ExecutionFault} {source scriptName : String}
    {c' : ExecutionContext ε} (h : c.evaluate g source scriptName = (.error fault, c')) :
    ¬ fault.IsReading := by
  unfold ExecutionContext.evaluate at h
  split at h
  · cases h
    exact id
  · split at h
    · cases h
      exact id
    · split at h
      · cases h
      · split at h
        · cases h
          exact id
        · cases h

end Parts

/-! ## One operation -/

section Apply

variable (g : ScriptEngine ε α) (s : Served ε)

theorem apply_evaluate (source scriptName : String) :
    Operation.apply g s (.evaluate source scriptName) =
      { s with context := (s.context.evaluate g source scriptName).2 } := by
  rw [Operation.apply, Operation.outcome]
  cases hOutcome : s.context.evaluate g source scriptName with
  | mk result context => cases result <;> rfl

theorem apply_run (script : String) :
    Operation.apply g s (.run script) = { s with context := (s.context.run g script).2 } := by
  rw [Operation.apply, Operation.outcome]
  cases hOutcome : s.context.run g script with
  | mk result context => cases result <;> rfl

variable {g s} in
theorem ReadsThroughout.append {before after : List Operation}
    (h : ReadsThroughout g s (before ++ after)) :
    ReadsThroughout g s before ∧ ReadsThroughout g (serve g s before) after := by
  induction before generalizing s with
  | nil => exact ⟨trivial, h⟩
  | cons op before ih => exact ⟨⟨h.1, (ih h.2).1⟩, (ih h.2).2⟩

variable {g s}

/-- Reading the outbox is the only thing that has a reading fault. -/
theorem exists_takeOutbox_of_isReading {op : Operation} {fault : ExecutionFault}
    (h : (op.outcome g s).1 = some fault) (hReading : fault.IsReading) :
    ∃ e e', ExecutionContext.takeOutbox g e = (.error fault, e') := by
  cases op with
  | evaluate source scriptName =>
      rw [Operation.outcome] at h
      split at h
      · next hOutcome =>
          cases h
          exact absurd hReading (not_isReading_of_evaluate hOutcome)
      · cases h
  | run script =>
      rw [Operation.outcome] at h
      split at h
      · next hOutcome =>
          cases h
          exact exists_takeOutbox_of_run hOutcome hReading
      · cases h
  | drain =>
      rw [Operation.outcome, ExecutionContext.drain] at h
      cases hTaken : ExecutionContext.takeOutbox g s.context.engine with
      | mk taken e' =>
          rw [hTaken] at h
          cases taken with
          | error fault =>
              cases h
              exact ⟨_, _, hTaken⟩
          | ok messages => cases h

/-- An outbox that can always be read is read without a fault. -/
theorem readsThroughout_of_takeOutbox
    (h : ∀ e, ∃ messages e', ExecutionContext.takeOutbox g e = (.ok messages, e'))
    (s : Served ε) (ops : List Operation) : ReadsThroughout g s ops := by
  induction ops generalizing s with
  | nil => trivial
  | cons op ops ih =>
      refine ⟨?_, ih _⟩
      intro fault hFault hReading
      obtain ⟨e, e', hTaken⟩ := exists_takeOutbox_of_isReading hFault hReading
      obtain ⟨messages, e'', hRead⟩ := h e
      rw [hRead] at hTaken
      cases hTaken

end Apply

namespace Mailbox

variable {g : ScriptEngine ε α} (b : Mailbox g) {s s' : Served ε} {op : Operation}

/-- The scripts of an operation are fair. -/
def FairOperation (op : Operation) : Prop := ∀ source, op.script? = some source → b.fair source

/-- What an operation changes: the events are put behind everything that was known. -/
structure Accounts (s s' : Served ε) (events : List Event) : Prop where
  intact : b.intact s'.context.engine
  posted : b.posted s'.context.engine =
    b.posted s.context.engine ++ events.filterMap Event.message?
  known : b.known s' = b.known s ++ events.map Event.record

theorem between_of_posts {e e' : ε} {new : List Json} (h : b.posted e' = b.posted e ++ new) :
    b.between e e' = new.map .posted := by
  rw [between, h, List.drop_left]

theorem filterMap_message?_posted (new : List Json) :
    (new.map Event.posted).filterMap Event.message? = new := by
  rw [List.filterMap_map]
  exact List.filterMap_some

theorem map_record_posted (new : List Json) :
    (new.map Event.posted).map Event.record = new := by
  rw [List.map_map]
  exact List.map_id new

/-- An operation in which nothing is thrown by a command and nothing is read. -/
theorem accounts_of_posts (hIntact : b.intact s'.context.engine)
    (hDrained : s'.drained = s.drained) (hPending : s'.context.pending = s.context.pending)
    (hPosts : Posts b.waiting b.posted s.context.engine s'.context.engine) :
    b.Accounts s s' (b.between s.context.engine s'.context.engine) := by
  obtain ⟨new, hPosted, hWaiting⟩ := hPosts
  rw [b.between_of_posts hPosted]
  refine ⟨hIntact, ?_, ?_⟩
  · rw [filterMap_message?_posted, hPosted]
  · rw [map_record_posted, known, known, hDrained, hPending, hWaiting, List.append_assoc,
      List.append_assoc, List.append_assoc]

/-- The throw of a command comes behind what was posted before it, and in front of what is posted
later. -/
theorem accounts_of_throw {e : ε} {thrown : String} (hIntact : b.intact s'.context.engine)
    (hDrained : s'.drained = s.drained)
    (hPending : s'.context.pending = s.context.pending ++ b.waiting e ++ [errorRecord thrown])
    (hPosts : Posts b.waiting b.posted s.context.engine e)
    (hEmpties : Empties b.waiting b.posted e s'.context.engine) :
    b.Accounts s s'
      (b.between s.context.engine e ++ .threw thrown :: b.between e s'.context.engine) := by
  obtain ⟨earlier, hPosted, hWaiting⟩ := hPosts
  obtain ⟨later, hPosted', hWaiting'⟩ := hEmpties
  rw [b.between_of_posts hPosted, b.between_of_posts hPosted']
  refine ⟨hIntact, ?_, ?_⟩
  · rw [List.filterMap_append, List.filterMap_cons_none rfl, filterMap_message?_posted,
      filterMap_message?_posted, hPosted', hPosted, List.append_assoc]
  · rw [List.map_append, List.map_cons, map_record_posted, map_record_posted, known, known,
      hDrained, hPending, hWaiting, hWaiting']
    simp [Event.record]

/-- Draining hands out what is kept and then what waits. -/
theorem accounts_of_drain (hIntact : b.intact s'.context.engine)
    (hDrained : s'.drained = s.drained ++ (s.context.pending ++ b.waiting s.context.engine))
    (hPending : s'.context.pending = [])
    (hEmpties : Empties b.waiting b.posted s.context.engine s'.context.engine) :
    b.Accounts s s' (b.between s.context.engine s'.context.engine) := by
  obtain ⟨new, hPosted, hWaiting⟩ := hEmpties
  rw [b.between_of_posts hPosted]
  refine ⟨hIntact, ?_, ?_⟩
  · rw [filterMap_message?_posted, hPosted]
  · rw [map_record_posted, known, known, hDrained, hPending, hWaiting]
    simp

/-- **One operation adds its own events**, unless the outbox cannot be read. -/
theorem accounts_apply (hIntact : b.intact s.context.engine) (hFair : b.FairOperation op)
    (hRead : ∀ fault, (op.outcome g s).1 = some fault → ¬ fault.IsReading) :
    b.Accounts s (op.apply g s) (b.events s op) := by
  cases op with
  | evaluate source scriptName =>
      obtain ⟨hPending, hAfter, hPosts⟩ := evaluate_posts b hIntact (hFair source rfl) scriptName
      rw [events, apply_evaluate]
      exact b.accounts_of_posts hAfter rfl hPending hPosts
  | run script =>
      obtain ⟨hScript, hPosts⟩ := b.evaluate hIntact (hFair script rfl)
      rw [events, apply_run, Operation.throw?]
      cases hValue : g.evaluate script s.context.engine with
      | mk result e =>
          rw [hValue] at hScript hPosts
          cases result with
          | ok v =>
              obtain ⟨hJobs, hPostsJobs⟩ := b.runJobs hScript
              rw [run_of_ok hValue]
              exact b.accounts_of_posts hJobs rfl rfl (hPosts.trans hPostsJobs)
          | error thrown =>
              cases hTaken : ExecutionContext.takeOutbox g e with
              | mk taken e' =>
                  cases taken with
                  | error fault =>
                      have hFault : ((Operation.run script).outcome g s).1 = some fault := by
                        rw [Operation.outcome, run_of_unread hValue hTaken]
                      exact absurd (isReading_of_takeOutbox hTaken) (hRead fault hFault)
                  | ok earlier =>
                      -- what was posted before the throw is kept before the jobs run
                      obtain ⟨rfl, hTaken', hEmpties⟩ := takeOutbox_eq_ok b hScript hTaken
                      obtain ⟨hJobs, hPostsJobs⟩ := b.runJobs hTaken'
                      rw [run_of_throw hValue hTaken]
                      exact b.accounts_of_throw hJobs rfl rfl hPosts (hEmpties.trans hPostsJobs)
  | drain =>
      rw [events, Operation.throw?, Operation.apply]
      cases hTaken : ExecutionContext.takeOutbox g s.context.engine with
      | mk taken e =>
          cases taken with
          | error fault =>
              have hFault : (Operation.drain.outcome g s).1 = some fault := by
                rw [Operation.outcome, ExecutionContext.drain, hTaken]
              exact absurd (isReading_of_takeOutbox hTaken) (hRead fault hFault)
          | ok messages =>
              obtain ⟨rfl, hTaken', hEmpties⟩ := takeOutbox_eq_ok b hIntact hTaken
              rw [Operation.outcome, ExecutionContext.drain, hTaken]
              exact b.accounts_of_drain hTaken' rfl rfl hEmpties

/-! ## All operations -/

theorem Accounts.trans {s'' : Served ε} {events events' : List Event}
    (h : b.Accounts s s' events) (h' : b.Accounts s' s'' events') :
    b.Accounts s s'' (events ++ events') where
  intact := h'.intact
  posted := by rw [h'.posted, h.posted, List.filterMap_append, List.append_assoc]
  known := by rw [h'.known, h.known, List.map_append, List.append_assoc]

theorem accounts_serve {ops : List Operation} (hIntact : b.intact s.context.engine)
    (hFair : ∀ op ∈ ops, b.FairOperation op) (hRead : ReadsThroughout g s ops) :
    b.Accounts s (serve g s ops) (b.history s ops) := by
  induction ops generalizing s with
  | nil => exact ⟨hIntact, (List.append_nil _).symm, (List.append_nil _).symm⟩
  | cons op ops ih =>
      have hFirst := b.accounts_apply hIntact (hFair op List.mem_cons_self) hRead.1
      have hRest := ih hFirst.intact (fun o ho => hFair o (List.mem_cons_of_mem op ho)) hRead.2
      exact hFirst.trans b hRest

theorem history_append (s : Served ε) (before after : List Operation) :
    b.history s (before ++ after) = b.history s before ++ b.history (serve g s before) after := by
  induction before generalizing s with
  | nil => rfl
  | cons op before ih =>
      rw [List.cons_append, history, history, ih, List.append_assoc]
      rfl

theorem filterMap_thrown?_between (e e' : ε) : (b.between e e').filterMap Event.thrown? = [] := by
  rw [between, List.filterMap_map]
  exact List.filterMap_none _

theorem filterMap_thrown?_events (s : Served ε) (op : Operation) :
    (b.events s op).filterMap Event.thrown? = ((op.throw? g s).map Prod.fst).toList := by
  rw [events]
  cases op.throw? g s with
  | none => exact b.filterMap_thrown?_between _ _
  | some thrown =>
      simp only [List.filterMap_append, List.filterMap_cons, Event.thrown?,
        filterMap_thrown?_between]
      rfl

theorem filterMap_thrown?_history (s : Served ε) (ops : List Operation) :
    (b.history s ops).filterMap Event.thrown? = thrownBy g s ops := by
  induction ops generalizing s with
  | nil => rfl
  | cons op ops ih =>
      rw [history, thrownBy, List.filterMap_append, filterMap_thrown?_events, ih]

/-- What is known of a context after some operations, told by their history. -/
structure KeepsPostOrder (s : Served ε) (ops : List Operation) : Prop where
  /-- What was drained, what is kept and what waits is the history and nothing else. -/
  known : b.known (serve g s ops) = b.known s ++ (b.history s ops).map Event.record
  /-- The messages of the history are those that were posted, in the order of posting. -/
  posted : b.posted (serve g s ops).context.engine =
    b.posted s.context.engine ++ (b.history s ops).filterMap Event.message?
  /-- There is one throw in the history for every command that has thrown. -/
  thrown : (b.history s ops).filterMap Event.thrown? = thrownBy g s ops
  /-- A throw stands behind everything that was posted before it, and in front of everything that
  was posted later. -/
  placed : ∀ before script after thrown e, ops = before ++ .run script :: after →
    g.evaluate script (serve g s before).context.engine = (.error thrown, e) →
    ∃ earlier later, b.history s ops = earlier ++ .threw thrown :: later ∧
      b.posted e = b.posted s.context.engine ++ earlier.filterMap Event.message? ∧
      b.posted (serve g s ops).context.engine =
        b.posted e ++ later.filterMap Event.message?

theorem events_of_throw {e : ε} {thrown : String} (h : op.throw? g s = some (thrown, e)) :
    b.events s op = b.between s.context.engine e ++
      .threw thrown :: b.between e (op.apply g s).context.engine := by
  rw [events, h]

/-- A row of operations splits at a command that throws. -/
theorem exists_history_eq {before after : List Operation} {script thrown : String} {e : ε}
    (hIntact : b.intact s.context.engine)
    (hFair : ∀ op ∈ before ++ .run script :: after, b.FairOperation op)
    (hRead : ReadsThroughout g s (before ++ .run script :: after))
    (hThrow : g.evaluate script (serve g s before).context.engine = (.error thrown, e)) :
    ∃ earlier later,
      b.history s (before ++ .run script :: after) = earlier ++ .threw thrown :: later ∧
      b.posted e = b.posted s.context.engine ++ earlier.filterMap Event.message? := by
  have hBefore := b.accounts_serve hIntact
    (fun op hOp => hFair op (List.mem_append_left _ hOp)) hRead.append.1
  have hScript : b.fair script :=
    hFair (.run script) (List.mem_append_right _ List.mem_cons_self) script rfl
  obtain ⟨-, new, hPosted, -⟩ := b.evaluate hBefore.intact hScript
  rw [hThrow] at hPosted
  have hThrown : (Operation.run script).throw? g (serve g s before) = some (thrown, e) := by
    rw [Operation.throw?, hThrow]
  have hEvents := b.events_of_throw hThrown
  rw [b.between_of_posts hPosted] at hEvents
  refine ⟨b.history s before ++ new.map .posted,
    b.between e ((Operation.run script).apply g (serve g s before)).context.engine ++
      b.history ((Operation.run script).apply g (serve g s before)) after, ?_, ?_⟩
  · rw [history_append, history, hEvents, List.append_assoc, List.append_assoc, List.cons_append]
  · rw [List.filterMap_append, filterMap_message?_posted, ← List.append_assoc, ← hBefore.posted]
    exact hPosted

end Mailbox

/-! ## A few scripts that are known by heart -/

/-- What a script does: the texts that it posts, those that its jobs post, and what it throws. -/
structure Deed where
  posts : List String := []
  later : List String := []
  thrown : Option String := none

/-- A command that throws behind its first message and in front of its second one. -/
def throwingCommand : String :=
  "Promise.resolve().then(() => parent.postMessage('later')); " ++
    "parent.postMessage('before'); throw new Error('boom')"

def Deed.of (script : String) : Deed :=
  if script = throwingCommand then
    { posts := ["before"], later := ["later"], thrown := some "Error: boom" }
  else if script = "parent.postMessage('between')" then { posts := ["between"] }
  else {}

/-- The texts in the outbox of an engine, all that were posted, and those that jobs will post. -/
structure Texts where
  waiting : List String := []
  posted : List String := []
  later : List String := []

def Texts.post (e : Texts) (new : List String) : Texts :=
  { e with waiting := e.waiting ++ new, posted := e.posted ++ new }

/-- An engine for the scripts that are known. Other scripts do nothing. -/
def deedEngine : ScriptEngine Texts (Option String) where
  evaluate script e :=
    if script = readingScript then
      (.ok (some (Json.array (e.waiting.map .string)).compact), { e with waiting := [] })
    else
      let after := { e.post (Deed.of script).posts with later := e.later ++ (Deed.of script).later }
      match (Deed.of script).thrown with
      | some thrown => (.error thrown, after)
      | none => (.ok none, after)
  runJobs e := (.ok (), { e.post e.later with later := [] })
  isUndefined := Option.isNone
  textOf v e := (.ok (v.getD "undefined"), e)

theorem snd_evaluate_deedEngine {script : String} (h : script ≠ readingScript) (e : Texts) :
    (deedEngine.evaluate script e).2 =
      { e.post (Deed.of script).posts with later := e.later ++ (Deed.of script).later } := by
  simp only [deedEngine, if_neg h]
  cases (Deed.of script).thrown <;> rfl

theorem evaluate_readingScript (e : Texts) : deedEngine.evaluate readingScript e =
    (.ok (some (Json.array (e.waiting.map .string)).compact), { e with waiting := [] }) := by
  simp only [deedEngine, if_pos]

def deedMailbox : Mailbox deedEngine where
  waiting e := e.waiting.map .string
  posted e := e.posted.map .string
  intact _ := True
  fair script := script ≠ readingScript
  evaluate {e script} _ hFair := by
    rw [snd_evaluate_deedEngine hFair]
    exact ⟨trivial, (Deed.of script).posts.map .string, List.map_append, List.map_append⟩
  runJobs {e} _ := ⟨trivial, e.later.map .string, List.map_append, List.map_append⟩
  textOf v _ := ⟨trivial, Posts.refl _⟩
  read {e e' v} _ h := by
    rw [evaluate_readingScript] at h
    cases h
    refine ⟨trivial, ⟨[], (List.append_nil _).symm, rfl⟩, ?_⟩
    intro text e'' hText read hRead
    cases hText
    rw [Option.getD_some, Json.readWhole_texts] at hRead
    exact (Except.ok.inj hRead).symm

theorem takeOutbox_deedEngine (e : Texts) : ExecutionContext.takeOutbox deedEngine e =
    (.ok (e.waiting.map .string), { e with waiting := [] }) := by
  have hText : ∀ (text : String) (e : Texts), deedEngine.textOf (some text) e = (.ok text, e) :=
    fun _ _ => rfl
  simp only [ExecutionContext.takeOutbox, evaluate_readingScript, hText]
  rw [Json.readWhole_texts]

/-- Two commands throw between two drains, and the job of each one posts after its throw. -/
def throwingOperations : List Operation :=
  [.run throwingCommand, .evaluate "parent.postMessage('between')" "input.js",
    .run throwingCommand, .drain, .run throwingCommand]

example : (serve deedEngine ⟨⟨⟨1⟩, {}, []⟩, []⟩ throwingOperations).drained =
    [.string "before", errorRecord "Error: boom", .string "later", .string "between",
      .string "before", errorRecord "Error: boom", .string "later"] := by
  have hThrowing : ∀ e, deedEngine.evaluate throwingCommand e =
      (.error "Error: boom", { e.post ["before"] with later := e.later ++ ["later"] }) :=
    fun _ => rfl
  have hBetween : ∀ e, deedEngine.evaluate "parent.postMessage('between')" e =
      (.ok none, { e.post ["between"] with later := e.later ++ [] }) := fun _ => rfl
  have hJobs : ∀ e, deedEngine.runJobs e = (.ok (), { e.post e.later with later := [] }) :=
    fun _ => rfl
  have hUndefined : deedEngine.isUndefined none = true := rfl
  simp [serve, throwingOperations, Operation.apply, Operation.outcome, ExecutionContext.run,
    ExecutionContext.evaluate, ExecutionContext.drain, takeOutbox_deedEngine, hThrowing, hBetween,
    hJobs, hUndefined, Texts.post]

end PagePreview.Console
