import PagePreview.Console.Contexts
import PagePreview.Proofs.Console.ShownMessages

/-!
# Contexts have different numbers

A conversation shows each message once if no context comes back.  A host that
numbers its contexts upwards (`Host.CountsUp`) sees to that, whatever the
lines, the compiler and the scripts do, and the contexts of the program itself
are numbered in this way.  So its console shows each message once
(`Contexts.showsEachOnce_host`).
-/

namespace PagePreview.Console

open Script Text

variable {ω : Type} {h : Host ω} {count : ω → Nat}

/-- A new context has a number above `count`, which nothing makes smaller. -/
structure Host.CountsUp (h : Host ω) (count : ω → Nat) : Prop where
  create : ∀ s, count s ≤ count (h.create s).2
  number : ∀ s c, (h.create s).1 = .ok c →
    count s < c.number ∧ c.number ≤ count (h.create s).2
  run : ∀ c script s, count s ≤ count (h.run c script s).2
  drain : ∀ c s, count s ≤ count (h.drain c s).2

/-- A round counts on, at least up to the context that it has created. -/
theorem Round.count_turn (hUp : h.CountsUp count) (compile : Compiler) (r : Round ω) :
    count r.prompt.host ≤ count (r.turn h compile).prompt.host ∧
    ∀ c, r.created? h = some c →
      count r.prompt.host < c.number ∧ c.number ≤ count (r.turn h compile).prompt.host := by
  unfold turn created?
  rw [Prompt.turn_eq]
  cases hOrder : Order.of r.line with
  | blank => simp
  | exit => simp
  | help => simp
  | clear => simp
  | history => simp
  | reset =>
      have hCreate := hUp.create r.prompt.host
      have hNumber := hUp.number r.prompt.host
      obtain ⟨e, host, hFailed, hTurn⟩ | ⟨c, host, _, _, _, hCreated, _, hTurn⟩ :=
        r.prompt.reset_eq h
      · simpa [hTurn, hFailed, Except.toOption] using hCreate
      · have hDrain := hUp.drain r.prompt.context host
        simp only [hCreated, Except.ok.injEq, forall_eq'] at hCreate hNumber
        simp [hTurn, hCreated, Except.toOption]
        omega
  | script =>
      obtain ⟨_, _, _, _, hTurn⟩ := r.prompt.submit_eq h compile (Order.trim_ne_empty hOrder)
      simpa [hTurn] using Nat.le_trans (hUp.run ..) (hUp.drain ..)

/-- The contexts that a conversation creates have ascending numbers. -/
theorem Prompt.pairwise_created (hUp : h.CountsUp count) (compile : Compiler) (p : Prompt ω)
    (lines : List (Option String)) :
    (∀ c ∈ (p.rounds h compile lines).filterMap (Round.created? h), count p.host < c.number) ∧
    ((p.rounds h compile lines).filterMap (Round.created? h)).Pairwise (·.number < ·.number) := by
  induction lines generalizing p with
  | nil => simp [rounds]
  | cons first lines ih =>
      cases first with
      | none => simp [rounds]
      | some line =>
          obtain ⟨hCount, hCreated⟩ := Round.count_turn hUp compile ⟨p, line⟩
          simp only [Round.turn] at hCount hCreated
          obtain ⟨rest, hRounds, hAbove, hAscending⟩ : ∃ rest,
              p.rounds h compile (some line :: lines) = ⟨p, line⟩ :: rest ∧
              (∀ c ∈ rest.filterMap (Round.created? h),
                count (p.turn h compile line).prompt.host < c.number) ∧
              (rest.filterMap (Round.created? h)).Pairwise (·.number < ·.number) := by
            rw [rounds]
            split
            · exact ⟨[], rfl, by simp⟩
            · exact ⟨_, rfl, ih (p.turn h compile line).prompt⟩
          -- what this round creates lies below everything that later ones create
          rw [hRounds, List.filterMap_cons]
          cases hNew : Round.created? h ⟨p, line⟩ with
          | none => exact ⟨fun c hMem => Nat.lt_of_le_of_lt hCount (hAbove c hMem), hAscending⟩
          | some c =>
              obtain ⟨hNumber, hBelow⟩ := hCreated c hNew
              refine ⟨fun d hMem => ?_, List.pairwise_cons.mpr ⟨fun d hMem => ?_, hAscending⟩⟩
              · obtain rfl | hMem := List.mem_cons.mp hMem
                · exact hNumber
                · exact Nat.lt_of_le_of_lt hCount (hAbove d hMem)
              · exact Nat.lt_of_le_of_lt hBelow (hAbove d hMem)

/-- No context of a conversation comes back if they are numbered upwards. -/
theorem Prompt.nodup_contexts (hUp : h.CountsUp count) (compile : Compiler) {p : Prompt ω}
    (hFirst : p.context.number ≤ count p.host) (lines : List (Option String)) :
    (p.contexts h compile lines).Nodup := by
  obtain ⟨hAbove, hAscending⟩ := p.pairwise_created hUp compile lines
  have hAll : (p.contexts h compile lines).Pairwise (·.number < ·.number) :=
    List.pairwise_cons.mpr ⟨fun c hMem => Nat.lt_of_le_of_lt hFirst (hAbove c hMem), hAscending⟩
  exact hAll.imp fun hLess hSame => by simp [hSame] at hLess

/-- The first context is counted as well. -/
theorem Prompt.number_start (hUp : h.CountsUp count) {host : ω} {p : Prompt ω}
    (hStart : (Prompt.start h host).1 = .ok p) : p.context.number ≤ count p.host := by
  unfold Prompt.start at hStart
  split at hStart
  · simp at hStart
  · next c after hCreate =>
      simp only [Except.ok.injEq] at hStart
      subst hStart
      have hNumber := hUp.number host c (by rw [hCreate])
      rw [hCreate] at hNumber
      exact hNumber.2

namespace Contexts

theorem created_within {α : Type} (id : ContextId) (usual : α)
    (action : ExecutionContext Engine.Context →
      Except ExecutionFault α × ExecutionContext Engine.Context) (cs : Contexts) :
    (within id usual action cs).2.created = cs.created := by
  unfold within
  split
  · rfl
  · split <;> rfl

/-- All that creating a context can do: it takes the next number, whether or not the context can be
used. -/
theorem create_cases (cs : Contexts) :
    (∃ text, create cs = (.error text, { cs with created := cs.created + 1 })) ∨
    ∃ started, create cs =
      (.ok ⟨cs.created + 1⟩, { cs with created := cs.created + 1 }.put started) := by
  -- opened without its argument: applied, it would run the scripts that prepare a context
  generalize hCreate : create = create'
  delta create at hCreate
  subst hCreate
  beta_reduce
  extract_lets id counted
  generalize ExecutionContext.start engine id Engine.Context.fresh = started
  cases started with
  | error fault => exact .inl ⟨fault.text, rfl⟩
  | ok c => exact .inr ⟨c, rfl⟩

theorem host_create : host.create = create := by rw [host]

/-- The contexts of the program are numbered from one on. -/
theorem host_countsUp : host.CountsUp created where
  create s := by
    rw [host_create]
    obtain ⟨text, hCreate⟩ | ⟨started, hCreate⟩ := create_cases s
    · simp [hCreate]
    · simp [hCreate, put]
  number s c hCreated := by
    rw [host_create] at hCreated ⊢
    obtain ⟨text, hCreate⟩ | ⟨started, hCreate⟩ := create_cases s
    · simp [hCreate] at hCreated
    · simp only [hCreate, Except.ok.injEq] at hCreated
      simp [hCreate, put, ← hCreated]
  run c script s := by simp [host, created_within]
  drain c s := by simp [host, created_within]

/-- In the program no context of a conversation comes back. -/
theorem nodup_contexts_host (compile : Compiler) {cs : Contexts} {p : Prompt Contexts}
    (hStart : (Prompt.start host cs).1 = .ok p) (lines : List (Option String)) :
    (p.contexts host compile lines).Nodup :=
  Prompt.nodup_contexts host_countsUp compile (Prompt.number_start host_countsUp hStart) lines

/-- **The console of the program shows each message once**, whatever is typed and whatever the
compiler answers. -/
theorem showsEachOnce_host (compile : Compiler) {cs : Contexts} {p : Prompt Contexts}
    (hStart : (Prompt.start host cs).1 = .ok p) (input : List UInt8) :
    ShowsEachOnce host compile p ((inputLines input).map lineText)
      (runConsole host compile cs input).1 (runConsole host compile cs input).2.1 := by
  obtain ⟨hSettled, hSession⟩ := Prompt.settled_start hStart
  rw [runConsole_of_start hStart]
  exact Prompt.showsEachOnce_run hSettled hSession (nodup_contexts_host compile hStart _)

end Contexts

end PagePreview.Console
