import PagePreview.Proofs.Script.TokensAhead
import PagePreview.Script.Parser

/-!
# What readers ensure

`Ensures P p Q` says that whatever the reader `p` gives in a state that satisfies
`P` satisfies `Q`, together with the state behind it.  Nothing is said about a
reader that fails.  There is one rule for each way in which readers are built:
one after the other (`Ensures.bind`), and again and again (`ensures_iterate`).

Most of what is said here is about the results alone.  For this,
`Ensures.bind_fact` hands on what is known about a result, and forgets the state.

The statements of a script are read one by one, and each of them comes in front of
those that are known.  What is read in the end is a row that begins with what the
first step gives (`ensures_program`).
-/

namespace PagePreview.Script.Parser

/-- Whatever a reader gives in a state that satisfies `P` satisfies `Q`, with the state behind
it. -/
def Ensures {α : Type} (P : State → Prop) (p : Parser α) (Q : α → State → Prop) : Prop :=
  ∀ s a s', P s → p s = .ok (a, s') → Q a s'

variable {α β : Type} {P : State → Prop} {Q : α → State → Prop} {R : β → State → Prop}
  {T : α → Prop}

/-! ## Rules -/

theorem Ensures.bind {p : Parser α} {f : α → Parser β} (hFirst : Ensures P p Q)
    (hNext : ∀ a, Ensures (Q a) (f a) R) : Ensures P (p >>= f) R := by
  intro s b s' hP h
  obtain ⟨a, between, hA, hB⟩ := exists_of_bind_eq_ok h
  exact hNext a between b s' (hFirst s a between hP hA) hB

/-- A fact that every state in front shows can be used for what follows. -/
theorem Ensures.of_state {A : Prop} {p : Parser α} (hA : ∀ s, P s → A)
    (h : A → Ensures (fun _ => True) p Q) : Ensures P p Q := by
  intro s a s' hs hOk
  exact h (hA s hs) s a s' trivial hOk

theorem Ensures.bind_fact {p : Parser α} {f : α → Parser β} (hFirst : Ensures P p fun a _ => T a)
    (hNext : ∀ a, T a → Ensures (fun _ => True) (f a) R) : Ensures P (p >>= f) R := by
  refine hFirst.bind ?_
  intro a
  exact .of_state (fun _ hT => hT) (hNext a)

/-- What holds of a result whatever has been read before it. -/
theorem Ensures.of_bind {p : Parser α} {f : α → Parser β}
    (h : ∀ a, Ensures (fun _ => True) (f a) R) : Ensures P (p >>= f) R :=
  Ensures.bind (Q := fun _ _ => True) (fun _ _ _ _ _ => trivial) h

/-- Less can be asked for, and more can be known. -/
theorem Ensures.mono {P' : State → Prop} {Q' : α → State → Prop} {p : Parser α}
    (h : Ensures P p Q) (hP : ∀ s, P' s → P s) (hQ : ∀ a s, Q a s → Q' a s) :
    Ensures P' p Q' := by
  intro s a s' hs hOk
  exact hQ a s' (h s a s' (hP s hs) hOk)

theorem ensures_pure {a : α} (h : ∀ s, P s → Q a s) : Ensures P (pure a) Q := by
  intro s b s' hP hPure
  rw [pure_eq, Except.ok.injEq, Prod.mk.injEq] at hPure
  obtain ⟨rfl, rfl⟩ := hPure
  exact h s hP

theorem ensures_refuse {defect : Defect} : Ensures P (refuse defect : Parser α) Q := by
  intro s a s' hP h
  exact absurd h (by simp [refuse])

/-- Behind a refusal anything may be claimed. -/
theorem ensures_refuse_bind {defect : Defect} {f : α → Parser β} :
    Ensures P ((refuse defect : Parser α) >>= f) R :=
  Ensures.bind (Q := fun _ _ => False) ensures_refuse fun _ _ _ _ h => h.elim

/-! ## Single tokens -/

/-- Looking changes nothing. -/
theorem ensures_look {p : Parser α} (h : ∀ s, ∃ a, p s = .ok (a, s)) :
    Ensures P p fun _ => P := by
  intro s a s' hP hOk
  obtain ⟨b, hLook⟩ := h s
  rw [hLook, Except.ok.injEq, Prod.mk.injEq] at hOk
  exact hOk.2 ▸ hP

theorem ensures_start : Ensures P start fun _ => P := ensures_look fun _ => ⟨_, rfl⟩

theorem ensures_get : Ensures P (get : Parser State) fun _ => P := ensures_look fun _ => ⟨_, rfl⟩

theorem ensures_isMark (m : String) : Ensures P (isMark m) fun _ => P :=
  ensures_look fun _ => ⟨_, rfl⟩

theorem ensures_following : Ensures P following fun _ => P := ensures_look fun _ => ⟨_, rfl⟩

theorem ensures_token : Ensures P token fun _ => P := ensures_look fun _ => ⟨_, rfl⟩

theorem ensures_lexeme : Ensures P lexeme fun l s => P s ∧ s.token.lexeme = l := by
  intro s l s' hP h
  have hLexeme : lexeme s = .ok (s.token.lexeme, s) := rfl
  rw [hLexeme, Except.ok.injEq, Prod.mk.injEq] at h
  obtain ⟨hSame, rfl⟩ := h
  exact ⟨hP, hSame⟩

/-- A node, whatever it spans. -/
theorem ensures_node {T : Node → Prop} (place : Nat) {kind : Kind} {children : List Node}
    (h : ∀ span, T (.mk kind span children)) :
    Ensures P (node place kind children) fun n _ => T n := by
  intro s n s' hP hOk
  rw [node_eq, Except.ok.injEq, Prod.mk.injEq] at hOk
  rw [← hOk.1]
  exact h _

/-- Whether the current token has been read as any other token is. -/
def Scanned (s : State) : Prop := ∃ l : Lexer, s.token = l.next.1

theorem ensures_advance : Ensures P advance fun _ => Scanned := by
  intro s a s' hP h
  rw [advance_eq, Except.ok.injEq, Prod.mk.injEq] at h
  exact ⟨s.after, h.2 ▸ rfl⟩

theorem isName_of_scanned {s : State} (h : Scanned s) {name : String} {escaped : Bool}
    (hLexeme : s.token.lexeme = .word name escaped) : isName name.toList = true := by
  obtain ⟨l, hToken⟩ := h
  rw [hToken, Lexer.next] at hLexeme
  split at hLexeme
  · exact isName_of_lexeme hLexeme
  · exact absurd hLexeme (by simp [Lexer.emit])

/-! ## Repetition -/

/-- The end of a repetition. -/
theorem ensures_none : Ensures P (pure none : Parser (Option α)) fun r _ =>
    ∀ c, r = some c → T c :=
  ensures_pure fun _ _ _ hSome => by simp at hSome

theorem ensures_some {a : α} (h : T a) : Ensures P (pure (some a) : Parser (Option α)) fun r _ =>
    ∀ c, r = some c → T c := by
  apply ensures_pure
  intro s hP c hSome
  rwa [← Option.some_inj.mp hSome]

section

variable {step : α → Parser (Option α)}

/-- What every step keeps holds of the end. -/
theorem ensures_iterateWithin
    (hStep : ∀ b, T b → Ensures (fun _ => True) (step b) fun r _ => ∀ c, r = some c → T c)
    (k : Nat) : ∀ a, T a → Ensures (fun _ => True) (iterateWithin step k a) fun r _ => T r := by
  induction k with
  | zero =>
    intro a ha
    exact ensures_refuse
  | succ k ih =>
    intro a ha
    rw [iterateWithin]
    refine (hStep a ha).bind_fact ?_
    intro r hr
    cases r with
    | none => exact ensures_pure fun _ _ => ha
    | some c => exact ih c (hr c rfl)

theorem ensures_iterate {a : α} (h : T a)
    (hStep : ∀ b, T b → Ensures (fun _ => True) (step b) fun r _ => ∀ c, r = some c → T c) :
    Ensures P (iterate step a) fun r _ => T r :=
  .of_bind fun _ => ensures_iterateWithin hStep _ a h

/-- The same from the first step on, of which more may be known than of the others. -/
theorem ensures_iterate_first {a : α}
    (hFirst : Ensures P (step a) fun r _ => ∀ c, r = some c → T c)
    (hStep : ∀ b, T b → Ensures (fun _ => True) (step b) fun r _ => ∀ c, r = some c → T c) :
    Ensures P (iterate step a) fun r _ => r = a ∨ T r := by
  refine ensures_get.bind ?_
  intro s
  cases s.limit with
  | zero => exact ensures_refuse
  | succ k =>
    rw [iterateWithin]
    refine hFirst.bind_fact ?_
    intro r hr
    cases r with
    | none => exact ensures_pure fun _ _ => .inl rfl
    | some c =>
      exact (ensures_iterateWithin hStep k c (hr c rfl)).mono (fun _ h => h) fun _ _ h => .inr h

end

/-- The items of a row, each of which has been read by the same reader. -/
theorem ensures_separated {T : Node → Prop} (close : String) {item : Parser Node}
    (h : Ensures (fun _ => True) item fun n _ => T n) :
    Ensures P (separated close item) fun ns _ => ∀ n ∈ ns, T n := by
  unfold separated separatedBy
  refine Ensures.bind_fact (T := fun r : List Node × Bool => ∀ n ∈ r.1, T n) ?_
    fun r hr => ensures_pure fun _ _ => hr
  refine (ensures_iterate (T := fun r : Bool × List Node => ∀ n ∈ r.2, T n) (by simp) ?_).bind_fact
    fun r hr => ensures_pure fun _ _ n hn => hr n (List.mem_reverse.mp hn)
  rintro ⟨more, items⟩ hItems
  refine .of_bind fun atEnd => ?_
  split
  · exact ensures_none
  · refine h.bind_fact ?_
    intro n hn
    exact .of_bind fun comma => ensures_some (List.forall_mem_cons.mpr ⟨hn, hItems⟩)

theorem ensures_bracketed {T : Node → Prop} (openMark close : String) {item : Parser Node}
    (h : Ensures (fun _ => True) item fun n _ => T n) :
    Ensures P (bracketed openMark close item) fun n _ => ∀ m ∈ n.children, T m := by
  unfold bracketed bracketedIn
  refine .of_bind fun place => .of_bind fun _ => (ensures_separated close h).bind_fact ?_
  intro ns hns
  have hNode : Ensures (fun _ => True) (node place .group ns)
      fun n _ => ∀ m ∈ n.children, T m :=
    ensures_node place fun _ => hns
  refine .of_bind fun closed => ?_
  dsimp only
  split
  · exact .of_bind fun _ => hNode
  · exact hNode

/-! ## Statement by statement -/

/-- One statement of a row, with what is known before it: whether only directives have come, and
the statements in reverse. -/
def statementStep (rules : Rules) (known : Bool × List Node) :
    Parser (Option (Bool × List Node)) := do
  if (← isMark "\x7d") || (← lexeme) == .finish then return none
  let here ← get
  let n ← rules .statement
  let raw : Option String := match known.1, n with
    | true, .mk .expression _ [.mk (.string _ _) s _] =>
      let length := s.stop - s.start
      let text := here.before.blanks.cursor.rest.take length
      if s.start == here.token.start then some (String.ofList ((text.drop 1).dropLast)) else none
    | _, _ => none
  match raw with
  | some raw => return some (true, Node.mk (.directive raw) n.span [] :: known.2)
  | none => return some (false, n :: known.2)

theorem statements_eq (rules : Rules) : statements rules =
    (iterate (statementStep rules) (true, []) >>= fun known => pure known.2.reverse) :=
  rfl

section

variable {α : Type} {step : α → Parser (Option α)} {a b : α} {s' : State}

theorem iterateWithin_of_some (h : step a s = .ok (some b, s')) (n : Nat) :
    iterateWithin step (n + 1) a s = iterateWithin step n b s' := by
  rw [iterateWithin, bind_of_eq_ok h]

theorem iterateWithin_of_none (h : step a s = .ok (none, s')) (n : Nat) :
    iterateWithin step (n + 1) a s = .ok (a, s') := by
  rw [iterateWithin, bind_of_eq_ok h]
  rfl

end

section

variable {rules : Rules} {T : Node → Prop}

/-- One statement more, in front of those that are known. -/
theorem ensures_statementStep {known : Bool × List Node}
    (h : Ensures P (rules .statement) fun n _ => T n)
    (hDirective : ∀ n raw span, T n → T (.mk (.directive raw) span [])) :
    Ensures P (statementStep rules known) fun r _ =>
      ∀ c, r = some c → ∃ n, c.2 = n :: known.2 ∧ T n := by
  unfold statementStep
  refine (ensures_isMark _).bind fun atEnd => (ensures_look fun _ => ⟨_, rfl⟩).bind fun l => ?_
  dsimp only
  split
  · exact ensures_none
  · refine ensures_get.bind fun here => h.bind_fact fun n hn => ?_
    split
    · exact ensures_some ⟨_, rfl, hDirective n _ _ hn⟩
    · exact ensures_some ⟨_, rfl, hn⟩

/-- What holds of the first statement wherever it is read. -/
theorem ensures_statements (h : Ensures P (rules .statement) fun n _ => T n)
    (hDirective : ∀ n raw span, T n → T (.mk (.directive raw) span [])) :
    Ensures P (statements rules) fun ns _ => ∀ n, ns.head? = some n → T n := by
  rw [statements_eq]
  -- The first statement that has been read is the last one of those that are known.
  refine Ensures.bind_fact (ensures_iterate_first
    (T := fun known : Bool × List Node => ∃ n front, known.2 = front ++ [n] ∧ T n) ?_ ?_) ?_
  · refine (ensures_statementStep h hDirective).mono (fun _ h => h) ?_
    intro r s hr c hc
    obtain ⟨n, hKnown, hn⟩ := hr c hc
    exact ⟨n, [], hKnown, hn⟩
  · rintro known ⟨n, front, hKnown, hn⟩
    have hAny : Ensures (fun _ => True) (rules .statement) fun _ _ => True :=
      fun _ _ _ _ _ => trivial
    refine (ensures_statementStep hAny fun _ _ _ _ => trivial).mono (fun _ h => h) ?_
    intro r s hr c hc
    obtain ⟨m, hMore, -⟩ := hr c hc
    exact ⟨n, m :: front, by rw [hMore, hKnown, List.cons_append], hn⟩
  · intro known hKnown
    apply ensures_pure
    intro s _ n hn
    rcases hKnown with rfl | ⟨m, front, hKnown, hm⟩
    · simp at hn
    · obtain rfl : m = n := by simpa [hKnown] using hn
      exact hm

theorem ensures_program (hashbang : Option String)
    (h : Ensures P (rules .statement) fun n _ => T n)
    (hDirective : ∀ n raw span, T n → T (.mk (.directive raw) span [])) :
    Ensures P (program rules hashbang) fun n _ =>
      n.kind = .program hashbang ∧ ∀ m, n.children.head? = some m → T m := by
  unfold program
  refine (ensures_statements h hDirective).bind_fact fun ns hFirst => .of_bind fun t => ?_
  dsimp only
  split
  · exact ensures_refuse_bind
  · exact ensures_pure fun _ _ => ⟨rfl, hFirst⟩

end

/-! ## From the text -/

/-- In front of a script stand the lexemes that its text gives. -/
theorem ahead_initial {cs : List Char} (h : Reads cs (t :: ts)) (hFirst : hashbang? cs = none)
    (context : Context) (extended : Bool) : Ahead (initial context extended cs) (t :: ts) := by
  have hGives := h 0 {}
  rw [initial, hFirst]
  exact hGives

/-- A script that is read to its end stands unless something has been complained about on the way
or a part of it is unfinished. -/
theorem parseIn_of_program {context : Context} {extended : Bool} {source : String} {root : Node}
    {s : State} (h : program (rulesWithin (4 * source.toList.length + 16))
      ((hashbang? source.toList).map String.ofList)
      (initial context extended source.toList) = .ok (root, s)) :
    parseIn context extended source =
      s.complaint.elim
        (if root.any isUnfinished then .error { lexeme := s.token.lexeme, place := s.token.start }
          else .ok ⟨root, s.after.notes.done.reverse⟩)
        .error := by
  rw [parseIn, h]
  dsimp only [bind, Except.bind]
  cases s.complaint <;> rfl

theorem exists_program_of_parseIn {context : Context} {extended : Bool} {source : String}
    {p : Program} (h : parseIn context extended source = .ok p) :
    ∃ s, program (rulesWithin (4 * source.toList.length + 16))
      ((hashbang? source.toList).map String.ofList)
      (initial context extended source.toList) = .ok (p.root, s) := by
  cases hProgram : program (rulesWithin (4 * source.toList.length + 16))
      ((hashbang? source.toList).map String.ofList)
      (initial context extended source.toList) with
  | error e =>
    rw [parseIn, hProgram] at h
    exact absurd h (by simp [bind, Except.bind])
  | ok r =>
    obtain ⟨root, s⟩ := r
    rw [parseIn_of_program hProgram] at h
    cases hComplaint : s.complaint with
    | some refusal =>
      rw [hComplaint] at h
      exact absurd h (by simp)
    | none =>
      rw [hComplaint, Option.elim_none] at h
      split at h
      · exact absurd h (by simp)
      · exact ⟨s, by rw [← Except.ok.inj h]⟩

theorem parseIn_of_parse? {extended : Bool} {source : String} {p : Program}
    (h : parse? extended source = some p) : parseIn {} extended source = .ok p := by
  unfold parse? at h
  cases hParse : parseIn {} extended source with
  | error e => rw [hParse] at h; exact absurd h (by simp [Except.toOption])
  | ok q => rw [hParse] at h; exact congrArg _ (Option.some_inj.mp h)

/-- Only whole scripts are read. -/
theorem exists_kind_of_parse? {extended : Bool} {source : String} {p : Program}
    (h : parse? extended source = some p) : ∃ hashbang, p.root.kind = .program hashbang := by
  obtain ⟨s, hProgram⟩ := exists_program_of_parseIn (parseIn_of_parse? h)
  have hAny : Ensures (fun _ => True) (rulesWithin (4 * source.toList.length + 16) .statement)
      fun _ _ => True :=
    fun _ _ _ _ _ => trivial
  have hKind := ensures_program ((hashbang? source.toList).map String.ofList) hAny
    fun _ _ _ _ => trivial
  exact ⟨_, (hKind _ _ _ trivial hProgram).1⟩

end PagePreview.Script.Parser
