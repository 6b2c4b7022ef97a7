import Mathlib.Data.List.DropRight
import PagePreview.Console.Session

/-!
# The log of a session

A session is steered from two sides: its user attaches it to contexts,
submits lines and clears the log, while contexts of any age send payloads
whenever they like.  A `Step` is one thing that either side does, and `run`
is the session after a row of them.

What the session shows is told here by the row alone.  The context that it
listens to is the one of the latest attach, unless a detach came later
(`listening`), and its log is what the steps since the latest attach or
clearing have contributed (`contributions`).  The state of the session does
not occur on that side, so `run_spec` says that owner, log and history
together keep no more and no less of the past than that.
-/

namespace PagePreview.Console.Session

open Script

/-- One thing that is done to a session. -/
inductive Step where
  | attach (context : ContextId)
  | detach
  | receive (source : ContextId) (payload : Json)
  | submit (compile : Compiler) (line : String)
  | clear

/-- The session after a step. -/
def Step.apply (s : Session) : Step → Session
  | attach context => s.attach context
  | detach => s.detach
  | receive source payload => (s.receive source payload).1
  | submit compile line => (s.submit compile line).1
  | clear => s.clear

/-- The session after some steps, from a new one on. -/
def run (steps : List Step) : Session := steps.foldl Step.apply {}

/-! ## What steps say by themselves -/

/-- Whether the log begins anew with a step. -/
def Step.restarts : Step → Bool
  | attach _ | clear => true
  | _ => false

/-- The context that a session listens to from a step on, if the step decides it. -/
def Step.owner? : Step → Option (Option ContextId)
  | attach context => some (some context)
  | detach => some none
  | _ => none

/-- The line that stands for a submitted one: trimmed, and none at all if it is blank. -/
def submitted? (line : String) : Option String :=
  if Text.trim line = "" then none else some (Text.trim line)

/-- The line that a step submits. -/
def Step.line? : Step → Option String
  | submit _ line => submitted? line
  | _ => none

/-- What a step contributes to the log of a session that listens to `owner`: the echo of a line,
or the message of a payload if it has one and comes from the owner. -/
def Step.contribution (owner : Option ContextId) : Step → List Message
  | receive source payload =>
    if owner = some source then (Message.decode payload).toOption.toList else []
  | submit _ line => (submitted? line).toList.map Message.command
  | _ => []

/-- The context of the latest attach, if no detach came later. -/
def listening (steps : List Step) : Option ContextId :=
  (steps.filterMap Step.owner?).getLast?.join

/-- What steps contribute, in order, when others came before them. -/
def contributions (before : List Step) : List Step → List Message
  | [] => []
  | step :: steps =>
    step.contribution (listening before) ++ contributions (before ++ [step]) steps

/-- The steps up to the latest one with which the log begins anew. -/
def untilRestart (steps : List Step) : List Step := steps.rdropWhile (!·.restarts)

/-- The steps behind that one. -/
def sinceRestart (steps : List Step) : List Step := steps.rtakeWhile (!·.restarts)

/-! ## One more step -/

theorem run_concat (steps : List Step) (step : Step) :
    run (steps ++ [step]) = step.apply (run steps) := by
  simp [run]

theorem listening_concat (steps : List Step) (step : Step) :
    listening (steps ++ [step]) = step.owner?.getD (listening steps) := by
  unfold listening
  rw [List.filterMap_append]
  cases hOwner : step.owner? with
  | none => simp [hOwner]
  | some owner => simp [hOwner]

theorem contributions_concat (before steps : List Step) (step : Step) :
    contributions before (steps ++ [step]) =
      contributions before steps ++ step.contribution (listening (before ++ steps)) := by
  induction steps generalizing before with
  | nil => simp [contributions]
  | cons first steps ih => simp [contributions, ih]

theorem untilRestart_append_sinceRestart (steps : List Step) :
    untilRestart steps ++ sinceRestart steps = steps :=
  List.rdropWhile_append_rtakeWhile

theorem untilRestart_concat (steps : List Step) (step : Step) :
    untilRestart (steps ++ [step]) =
      if step.restarts then steps ++ [step] else untilRestart steps := by
  cases hRestart : step.restarts <;> simp [untilRestart, hRestart]

theorem sinceRestart_concat (steps : List Step) (step : Step) :
    sinceRestart (steps ++ [step]) =
      if step.restarts then [] else sinceRestart steps ++ [step] := by
  cases hRestart : step.restarts <;> simp [sinceRestart, hRestart]

/-! ## What a step does to a session -/

section Apply

variable (s : Session) (step : Step)

theorem owner_apply : (step.apply s).owner = step.owner?.getD s.owner := by
  cases step with
  | attach context => rfl
  | detach => rfl
  | receive source payload =>
      simp only [Step.apply, Session.receive, Step.owner?, Option.getD_none]
      split
      · split <;> rfl
      · rfl
  | submit compile line =>
      simp only [Step.apply, Session.submit, Step.owner?, Option.getD_none]
      split <;> rfl
  | clear => rfl

/-- A step that does not empty the log adds what it contributes. -/
theorem log_apply : (step.apply s).log =
    if step.restarts then [] else s.log ++ step.contribution s.owner := by
  cases step with
  | attach context => rfl
  | detach => simp [Step.apply, Step.restarts, Step.contribution, Session.detach]
  | receive source payload =>
      simp only [Step.apply, Session.receive, Step.restarts, Step.contribution, beq_iff_eq]
      split
      · cases hRead : Message.decode payload <;> simp [Except.toOption]
      · simp
  | submit compile line =>
      simp only [Step.apply, Session.submit, Step.restarts, Step.contribution, submitted?,
        String.isEmpty_iff]
      split <;> simp
  | clear => rfl

/-- The history takes the line of a step, and stands behind its last line. -/
theorem history_apply : (step.apply s).history =
    step.line?.elim s.history s.history.push := by
  cases step with
  | attach context => rfl
  | detach => rfl
  | receive source payload =>
      simp only [Step.apply, Session.receive, Step.line?, Option.elim_none]
      split
      · split <;> rfl
      · rfl
  | submit compile line =>
      simp only [Step.apply, Session.submit, Step.line?, submitted?, String.isEmpty_iff]
      split <;> rfl
  | clear => rfl

end Apply

/-! ## What a run does -/

theorem owner_run (steps : List Step) : (run steps).owner = listening steps := by
  induction steps using List.reverseRecOn with
  | nil => rfl
  | append_singleton steps step ih =>
      rw [run_concat, owner_apply, ih, listening_concat]

/-- The log is what the steps since its last beginning have contributed. -/
theorem log_run (steps : List Step) :
    (run steps).log = contributions (untilRestart steps) (sinceRestart steps) := by
  induction steps using List.reverseRecOn with
  | nil => rfl
  | append_singleton steps step ih =>
      rw [run_concat, log_apply, ih, owner_run, untilRestart_concat, sinceRestart_concat]
      split
      · rfl
      · -- all the steps so far decide which context is listened to, not only the recent ones
        rw [contributions_concat, untilRestart_append_sinceRestart]

theorem history_run (steps : List Step) :
    (run steps).history =
      { entries := steps.filterMap Step.line?
        cursor := (steps.filterMap Step.line?).length } := by
  induction steps using List.reverseRecOn with
  | nil => rfl
  | append_singleton steps step ih =>
      rw [run_concat, history_apply, ih, List.filterMap_append]
      cases hLine : step.line? <;> simp [hLine, History.push]

/-! ## Answers -/

section Receive

variable (s : Session) (source : ContextId) (payload : Json)

theorem receive_snd_eq_appended_iff : (s.receive source payload).2 = .appended ↔
    s.owner = some source ∧ ∃ m, Message.decode payload = .ok m := by
  simp only [Session.receive, beq_iff_eq]
  split
  · next hOwner => cases hRead : Message.decode payload <;> simp [hOwner]
  · next hOwner => simp [hOwner]

/-- A payload that is not taken leaves no trace. -/
theorem receive_fst_of_ne_appended (h : (s.receive source payload).2 ≠ .appended) :
    (s.receive source payload).1 = s := by
  simp only [Session.receive] at h ⊢
  split
  · cases hRead : Message.decode payload with
    | ok m => simp_all
    | error fault => rfl
  · rfl

end Receive

/-- **What a session shows after any steps.**  Its log holds, in order, what the steps since the
latest attach or clearing have contributed.  A payload is appended if and only if it is a message
that comes from the context of the latest attach, with no detach since, and otherwise the session
stays as it is.  The history holds all the lines that were submitted, and nothing but a submitted
line changes it. -/
theorem run_spec (steps : List Step) :
    (run steps).log = contributions (untilRestart steps) (sinceRestart steps) ∧
    (∀ source payload, ((run steps).receive source payload).2 = .appended ↔
      listening steps = some source ∧ ∃ m, Message.decode payload = .ok m) ∧
    (∀ source payload, ((run steps).receive source payload).2 ≠ .appended →
      ((run steps).receive source payload).1 = run steps) ∧
    (run steps).history =
      { entries := steps.filterMap Step.line?
        cursor := (steps.filterMap Step.line?).length } ∧
    ∀ step : Step, step.line? = none → (step.apply (run steps)).history = (run steps).history := by
  refine ⟨log_run steps, fun source payload => ?_, fun source payload => ?_, history_run steps,
    fun step hLine => ?_⟩
  · rw [receive_snd_eq_appended_iff, owner_run]
  · exact receive_fst_of_ne_appended (run steps) source payload
  · rw [history_apply, hLine, Option.elim_none]

end PagePreview.Console.Session
