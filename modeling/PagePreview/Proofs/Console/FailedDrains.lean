import PagePreview.Proofs.Console.PostOrder

/-!
# Drains that fail

A drain gives up the records that a context keeps before it reads the outbox.
What a context keeps are the records of the commands that have thrown since the
last drain, each behind what was posted before it (`pending_serve`).  When the
outbox cannot be read these records are gone: they are not in the context that
is left, and whatever the next drain hands out has been kept since
(`drain_keepsRecords_iff`).
-/

namespace PagePreview.Console

variable {ε α : Type}

/-! ## Records that wait for a drain -/

def Operation.isDrain : Operation → Bool
  | drain => true
  | evaluate _ _ | run _ => false

/-- What a context keeps because of an operation: if a command throws, what was posted before, and
a record of the throw. -/
def Operation.records (g : ScriptEngine ε α) (s : Served ε) : Operation → List Json
  | run script =>
    match g.evaluate script s.context.engine with
    | (.ok _, _) => []
    | (.error thrown, engine) =>
      match ExecutionContext.takeOutbox g engine with
      | (.error _, _) => []
      | (.ok earlier, _) => earlier ++ [errorRecord thrown]
  | evaluate _ _ | drain => []

/-- The records of all operations that have no drain behind them. -/
def unreported (g : ScriptEngine ε α) (s : Served ε) : List Operation → List Json
  | [] => []
  | op :: ops =>
    (if ops.any Operation.isDrain then [] else op.records g s) ++ unreported g (op.apply g s) ops

/-- No drain among some operations succeeds. -/
def HandsOutNothing (g : ScriptEngine ε α) : Served ε → List Operation → Prop
  | _, [] => True
  | s, op :: ops =>
    (op.isDrain = true → (op.outcome g s).1 ≠ none) ∧ HandsOutNothing g (op.apply g s) ops

/-- A context whose outbox cannot be read loses nothing: a drain fails for that reason and leaves
the records as they were, and the next drain that succeeds hands them out first. -/
structure KeepsRecords (g : ScriptEngine ε α) (fault : ExecutionFault) (c : ExecutionContext ε) :
    Prop where
  fails : (c.drain g).1 = .error fault
  kept : (c.drain g).2.pending = c.pending
  returned : ∀ ops, HandsOutNothing g ⟨(c.drain g).2, []⟩ ops → ∀ messages c',
    (serve g ⟨(c.drain g).2, []⟩ ops).context.drain g = (.ok messages, c') →
    c.pending <+: messages

/-! ## What is kept -/

section Kept

variable {g : ScriptEngine ε α} {c c' : ExecutionContext ε} {fault : ExecutionFault} {e : ε}

theorem pending_evaluate (g : ScriptEngine ε α) (c : ExecutionContext ε)
    (source scriptName : String) : (c.evaluate g source scriptName).2.pending = c.pending := by
  unfold ExecutionContext.evaluate
  split
  · rfl
  · split
    · rfl
    · split
      · rfl
      · split <;> rfl

theorem drain_of_unread (h : ExecutionContext.takeOutbox g c.engine = (.error fault, e)) :
    c.drain g = (.error fault, { c with engine := e, pending := [] }) := by
  rw [ExecutionContext.drain, h]

theorem drain_of_read {messages : List Json}
    (h : ExecutionContext.takeOutbox g c.engine = (.ok messages, e)) :
    c.drain g = (.ok (c.pending ++ messages), { c with engine := e, pending := [] }) := by
  rw [ExecutionContext.drain, h]

/-- However a drain ends, nothing is kept behind it. -/
theorem pending_drain (g : ScriptEngine ε α) (c : ExecutionContext ε) :
    (c.drain g).2.pending = [] := by
  cases h : ExecutionContext.takeOutbox g c.engine with
  | mk taken e =>
      cases taken with
      | error fault => rw [drain_of_unread h]
      | ok messages => rw [drain_of_read h]

theorem apply_drain (g : ScriptEngine ε α) (s : Served ε) :
    (Operation.apply g s .drain).context = (s.context.drain g).2 := by
  rw [Operation.apply, Operation.outcome]
  cases s.context.drain g with
  | mk result context => cases result <;> rfl

/-- A command that throws adds its records, unless the outbox cannot be read. -/
theorem pending_run (g : ScriptEngine ε α) (s : Served ε) (script : String) :
    (s.context.run g script).2.pending =
      s.context.pending ++ (Operation.run script).records g s := by
  cases hValue : g.evaluate script s.context.engine with
  | mk result e =>
      cases result with
      | ok v => simp only [run_of_ok hValue, Operation.records, hValue, List.append_nil]
      | error thrown =>
          cases hTaken : ExecutionContext.takeOutbox g e with
          | mk taken e' =>
              cases taken with
              | error fault =>
                  simp only [run_of_unread hValue hTaken, Operation.records, hValue, hTaken,
                    List.append_nil]
              | ok earlier =>
                  simp only [run_of_throw hValue hTaken, Operation.records, hValue, hTaken,
                    List.append_assoc]

/-- **One operation adds its own records**, and a drain gives up all of them. -/
theorem pending_apply (g : ScriptEngine ε α) (s : Served ε) (op : Operation) :
    (op.apply g s).context.pending =
      (if op.isDrain then [] else s.context.pending) ++ op.records g s := by
  cases op with
  | evaluate source scriptName =>
      rw [apply_evaluate]
      exact (pending_evaluate g s.context source scriptName).trans (List.append_nil _).symm
  | run script =>
      rw [apply_run]
      exact pending_run g s script
  | drain =>
      rw [apply_drain]
      exact pending_drain g s.context

/-- **What is kept behind some operations** are the records of those that have no drain behind
them. -/
theorem pending_serve (g : ScriptEngine ε α) (s : Served ε) (ops : List Operation) :
    (serve g s ops).context.pending =
      (if ops.any Operation.isDrain then [] else s.context.pending) ++ unreported g s ops := by
  induction ops generalizing s with
  | nil => exact (List.append_nil _).symm
  | cons op ops ih =>
      have hRest := ih (op.apply g s)
      rw [pending_apply] at hRest
      rw [serve, List.foldl_cons, ← serve, hRest, unreported, List.any_cons]
      cases hDrain : op.isDrain <;> cases hLater : ops.any Operation.isDrain <;> simp

theorem pending_of_prepare {what source scriptName : String}
    (h : ExecutionContext.prepare g what source scriptName c = .ok c') :
    c'.pending = c.pending := by
  have hPending := pending_evaluate g c source scriptName
  unfold ExecutionContext.prepare at h
  split at h
  · next hOutcome =>
      cases h
      rw [hOutcome] at hPending
      exact hPending
  · cases h
  · cases h

/-- A context that has been started keeps nothing yet. -/
theorem pending_of_start {id : ContextId} (h : ExecutionContext.start g id e = .ok c) :
    c.pending = [] := by
  rw [ExecutionContext.start] at h
  cases hPrelude : ExecutionContext.prepare g "prelude" windowScript "<prelude>"
      { id, engine := e } with
  | error fault =>
      rw [hPrelude] at h
      cases h
  | ok prelude =>
      rw [hPrelude] at h
      exact (pending_of_prepare h).trans (pending_of_prepare hPrelude)

end Kept

/-! ## What a failed drain loses -/

section Lost

variable {g : ScriptEngine ε α} {c : ExecutionContext ε} {e e' : ε} {fault : ExecutionFault}

/-- A drain that succeeds hands out what has been kept since the last one, and then the outbox. -/
theorem exists_drain_eq {s : Served ε} {ops : List Operation} {messages : List Json}
    (hPending : s.context.pending = [])
    (h : (serve g s ops).context.drain g = (.ok messages, c)) :
    ∃ waiting e, ExecutionContext.takeOutbox g (serve g s ops).context.engine = (.ok waiting, e) ∧
      messages = unreported g s ops ++ waiting := by
  have hKept := pending_serve g s ops
  rw [hPending, ite_self, List.nil_append] at hKept
  cases hTaken : ExecutionContext.takeOutbox g (serve g s ops).context.engine with
  | mk taken e =>
      cases taken with
      | error fault =>
          rw [drain_of_unread hTaken] at h
          cases h
      | ok waiting =>
          rw [drain_of_read hTaken, hKept] at h
          cases h
          exact ⟨waiting, e, rfl, rfl⟩

/-- Nothing is lost only where nothing was kept. -/
theorem keepsRecords_iff (h : ExecutionContext.takeOutbox g c.engine = (.error fault, e)) :
    KeepsRecords g fault c ↔ c.pending = [] := by
  constructor
  · intro hKeeps
    rw [← hKeeps.kept]
    exact pending_drain g c
  · intro hNothing
    refine ⟨?_, ?_, ?_⟩
    · rw [drain_of_unread h]
    · rw [pending_drain, hNothing]
    · intro ops _ messages c' _
      rw [hNothing]
      exact List.nil_prefix

/-- **A drain that fails gives its reason, and loses the records of all commands that have thrown
since the last drain.**  Nothing is lost exactly if there is no such record.  What later drains
hand out are the records that are kept from then on, and what waits in the outbox. -/
theorem drain_keepsRecords_iff {id : ContextId} {s : Served ε} {ops : List Operation}
    (hStart : ExecutionContext.start g id e = .ok c) (hServed : serve g ⟨c, []⟩ ops = s)
    (hRead : ExecutionContext.takeOutbox g s.context.engine = (.error fault, e')) :
    s.context.drain g = (.error fault, { s.context with engine := e', pending := [] }) ∧
    s.context.pending = unreported g ⟨c, []⟩ ops ∧
    (KeepsRecords g fault s.context ↔ unreported g ⟨c, []⟩ ops = []) ∧
    ∀ later messages c',
      (serve g (Operation.drain.apply g s) later).context.drain g = (.ok messages, c') →
      ∃ waiting e'', ExecutionContext.takeOutbox g
          (serve g (Operation.drain.apply g s) later).context.engine = (.ok waiting, e'') ∧
        messages = unreported g (Operation.drain.apply g s) later ++ waiting := by
  have hPending : s.context.pending = unreported g ⟨c, []⟩ ops := by
    rw [← hServed, pending_serve, pending_of_start hStart, ite_self, List.nil_append]
  refine ⟨drain_of_unread hRead, hPending, ?_, ?_⟩
  · rw [keepsRecords_iff hRead, hPending]
  · intro later messages c' hDrain
    refine exists_drain_eq ?_ hDrain
    rw [apply_drain]
    exact pending_drain g s.context

end Lost

/-! ## An outbox that scripts can replace -/

/-- The script puts something into the place of the outbox that throws when it is emptied. -/
def replacingCommand : String :=
  "globalThis.__livepad_outbox = \x7b push() \x7b\x7d, splice() \x7b throw 'x' \x7d \x7d"

def restoringCommand : String := "globalThis.__livepad_outbox = [];"

def failingCommand : String := "throw new Error('boom')"

/-- An engine for these scripts; its state are the texts in the outbox, if the outbox is in its
place.  Other scripts do nothing. -/
def replaceableEngine : ScriptEngine (Option (List String)) (Option String) where
  evaluate script outbox :=
    if script = readingScript then
      match outbox with
      | none => (.error "\"x\"", none)
      | some texts => (.ok (some (Json.array (texts.map .string)).compact), some [])
    else if script = replacingCommand then (.ok none, none)
    else if script = restoringCommand then (.ok none, some [])
    else if script = failingCommand then (.error "Error: boom", outbox)
    else (.ok none, outbox)
  runJobs outbox := (.ok (), outbox)
  isUndefined := Option.isNone
  textOf v outbox := (.ok (v.getD "undefined"), outbox)

/-- The scripts that prepare a context are none of these. -/
theorem start_replaceableEngine :
    ExecutionContext.start replaceableEngine ⟨1⟩ (some []) = .ok ⟨⟨1⟩, some [], []⟩ := by
  have hNothing : ∀ script ∈ [windowScript, bootstrap], ∀ outbox,
      replaceableEngine.evaluate script outbox = (.ok none, outbox) := by
    have hOther : ∀ script ∈ [windowScript, bootstrap], script ≠ readingScript ∧
        script ≠ replacingCommand ∧ script ≠ restoringCommand ∧ script ≠ failingCommand := by
      decide +kernel
    intro script hScript outbox
    obtain ⟨hReading, hReplacing, hRestoring, hFailing⟩ := hOther script hScript
    simp only [replaceableEngine, if_neg hReading, if_neg hReplacing, if_neg hRestoring,
      if_neg hFailing]
  have hPrepare : ∀ script ∈ [windowScript, bootstrap], ∀ what name c,
      ExecutionContext.prepare replaceableEngine what script name c = .ok c := by
    intro script hScript what name c
    rw [ExecutionContext.prepare, ExecutionContext.evaluate, hNothing script hScript]
    rfl
  rw [ExecutionContext.start, hPrepare windowScript (by simp)]
  exact hPrepare bootstrap (by simp) "console hook" "<bootstrap>" _

/-- A command throws, and then the outbox is replaced. -/
def losingOperations : List Operation := [.run failingCommand, .run replacingCommand]

theorem serve_losingOperations :
    serve replaceableEngine ⟨⟨⟨1⟩, some [], []⟩, []⟩ losingOperations =
      ⟨⟨⟨1⟩, none, [errorRecord "Error: boom"]⟩, []⟩ :=
  rfl

theorem takeOutbox_replaced :
    ExecutionContext.takeOutbox replaceableEngine none = (.error (.reading "\"x\""), none) :=
  rfl

/-- The record of a throw is not in what is drained next, though the outbox can be read again. -/
theorem not_keepsRecords_replacedOutbox :
    ∃ c s, ExecutionContext.start replaceableEngine ⟨1⟩ (some []) = .ok c ∧
      serve replaceableEngine ⟨c, []⟩ losingOperations = s ∧
      s.context.pending = [errorRecord "Error: boom"] ∧
      (s.context.drain replaceableEngine).1 = .error (.reading "\"x\"") ∧
      ((serve replaceableEngine ⟨(s.context.drain replaceableEngine).2, []⟩
        [.run restoringCommand]).context.drain replaceableEngine).1 = .ok [] ∧
      ¬ KeepsRecords replaceableEngine (.reading "\"x\"") s.context := by
  have hDrain : (⟨⟨1⟩, none, [errorRecord "Error: boom"]⟩ : ExecutionContext _).drain
      replaceableEngine = (.error (.reading "\"x\""), ⟨⟨1⟩, none, []⟩) :=
    drain_of_unread takeOutbox_replaced
  refine ⟨_, _, start_replaceableEngine, serve_losingOperations, rfl, ?_, ?_, ?_⟩
  · rw [hDrain]
  · rw [hDrain]
    rfl
  · rw [keepsRecords_iff takeOutbox_replaced]
    exact List.cons_ne_nil _ _

/-- With the throw of a command a record is lost, and without it there is none. -/
theorem drain_keepsRecords_iff_replacedOutbox :
    ¬ KeepsRecords replaceableEngine (.reading "\"x\"")
      (serve replaceableEngine ⟨⟨⟨1⟩, some [], []⟩, []⟩ losingOperations).context ∧
    KeepsRecords replaceableEngine (.reading "\"x\"")
      (serve replaceableEngine ⟨⟨⟨1⟩, some [], []⟩, []⟩ [.run replacingCommand]).context := by
  have hReplaced : serve replaceableEngine ⟨⟨⟨1⟩, some [], []⟩, []⟩ [.run replacingCommand] =
      ⟨⟨⟨1⟩, none, []⟩, []⟩ := rfl
  obtain ⟨-, hKept, hLost, -⟩ := drain_keepsRecords_iff start_replaceableEngine
    serve_losingOperations takeOutbox_replaced
  obtain ⟨-, hKept', hIff, -⟩ := drain_keepsRecords_iff start_replaceableEngine hReplaced
    takeOutbox_replaced
  rw [serve_losingOperations, hLost, hReplaced, hIff, ← hKept, ← hKept']
  exact ⟨List.cons_ne_nil _ _, rfl⟩

end PagePreview.Console
