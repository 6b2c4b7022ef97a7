import PagePreview.Proofs.Script.Postconditions

/-!
# Reading an import

A script that consists of the words `import`, a name, `from`, a text and a
semicolon is read as the import of a module's default (`parse?_of_reads`),
whichever name it is: words like `type`, `defer`, `source` and `from` that say
something about other imports are names here.

With the word `source` in front of the name the same is imported in a phase of
its own (`parse?_of_reads_source`).  Without a name the import names nothing,
although the word `from` stands in it (`parse?_of_reads_bare`).
-/

namespace PagePreview.Script

/-- The import of a module's default under a name. -/
def IsDefaultImport (name specifier : String) (lossy : Bool) (n : Node) : Prop :=
  ∃ whole group first local_ source : Span, n =
    .mk (.importFrom false none) whole
      [.mk .group group [.mk .importDefault first [.mk (.name name) local_ []]],
        .mk (.string specifier lossy) source [], .absent]

/-- The same in a phase, if one is named. -/
def IsPhaseImport (phase : Option String) (name specifier : String) (lossy : Bool) (n : Node) :
    Prop :=
  ∃ whole group first local_ source : Span, n =
    .mk (.importFrom false phase) whole
      [.mk .group group [.mk .importDefault first [.mk (.name name) local_ []]],
        .mk (.string specifier lossy) source [], .absent]

/-- The import of a module of which nothing is named. -/
def IsBareImport (specifier : String) (lossy : Bool) (n : Node) : Prop :=
  ∃ whole source : Span, n =
    .mk (.importFrom false none) whole [.absent, .mk (.string specifier lossy) source [], .absent]

namespace Parser

variable {s : State} {ts : List Lexeme} {t u : Lexeme}

/-! ## Parts of an import -/

theorem importAttributes_of_ahead (h : Ahead s (.mark ";" :: ts)) :
    importAttributes s = .ok (.absent, s) := by
  rw [importAttributes, bind_of_eq_ok (start_eq s), bind_of_eq_ok (isWord_of_ahead h _),
    bind_of_eq_ok (onNewLine_eq s)]
  dsimp only
  rw [bind_of_eq_ok (isWord_of_ahead h _)]
  rfl

/-- Where an import comes from, up to the end of the statement. -/
theorem importSource_of_ahead {value : String} {lossy : Bool} (place : Nat) (typeOnly : Bool)
    (phase : Option String) (specifiers : Node)
    (h : Ahead s (.string value lossy :: .mark ";" :: t :: ts)) :
    ∃ whole source, importSource place typeOnly phase specifiers s =
      .ok (.mk (.importFrom typeOnly phase) whole
        [specifiers, .mk (.string value lossy) source [], .absent], advanced (advanced s)) := by
  refine ⟨⟨place, (advanced s).token.stop⟩, ⟨s.token.start, s.token.stop⟩, ?_⟩
  rw [importSource, bind_of_eq_ok (stringLiteral_of_ahead h),
    bind_of_eq_ok (importAttributes_of_ahead h.advanced),
    bind_of_eq_ok (semicolon_of_ahead h.advanced)]
  rfl

/-! ## Names -/

/-- Whether a word is an operator in some context. -/
def isOperator (w : String) (c : Context) : Bool :=
  (w == "yield" && c.yields) || (w == "await" && c.awaits)

/-- The state with a complaint about the current token if that is an operator. -/
def checked (w : String) (s : State) : State :=
  if isOperator w s.context then
    let refusal : Refusal := ⟨s.token.lexeme, s.token.start, .unexpected "primary expression"⟩
    { s with complaint := s.complaint.or (some refusal) }
  else s

@[simp] theorem token_checked (w : String) (s : State) : (checked w s).token = s.token := by
  unfold checked
  split <;> rfl

@[simp] theorem after_checked (w : String) (s : State) : (checked w s).after = s.after := by
  unfold checked
  split <;> rfl

@[simp] theorem extended_checked (w : String) (s : State) :
    (checked w s).extended = s.extended := by
  unfold checked
  split <;> rfl

theorem identifier_of_ahead {w : String} {escaped : Bool} (h : Ahead s (.word w escaped :: ts))
    (hReserved : w ∉ reservedWords) :
    ∃ span, identifier s = .ok (.mk (.name w) span [], advanced (checked w s)) := by
  refine ⟨⟨s.token.start, s.token.stop⟩, ?_⟩
  rw [identifier, bind_of_eq_ok (start_eq s), bind_of_eq_ok (lexeme_of_ahead h)]
  dsimp only
  rw [if_neg (by simpa using hReserved)]
  have hContext : Parser.context s = .ok (s.context, s) := rfl
  rw [bind_of_eq_ok hContext]
  unfold checked isOperator
  split <;> rfl

/-! ## What a word says about an import -/

/-- Looking further never fails and goes nowhere. -/
theorem exists_qualifiesImport (w : String) (braces : Bool) (s : State) :
    ∃ b, qualifiesImport w braces s = .ok (b, s) :=
  ⟨_, rfl⟩

theorem looking_of_eq_ok {p : Parser Bool} {b : Bool} (s' : State) (h : p s = .ok (b, s')) :
    looking p s = .ok (b, s) := by
  have hLook : look p s = .ok (some b, s) := by rw [look, h]; rfl
  rw [looking, bind_of_eq_ok hLook]
  rfl

/-- Another word says nothing. -/
theorem qualifiesImport_of_ne {w : String} (braces : Bool) (h : Ahead s (t :: ts))
    (hOther : t ≠ .word w false) : qualifiesImport w braces s = .ok (false, s) := by
  apply looking_of_eq_ok s
  rw [bind_of_eq_ok (isWord_of_ahead h _), beq_eq_false_iff_ne.mpr hOther]
  rfl

/-- The word `defer` only says something in front of a mark. -/
theorem qualifiesImport_defer_of_ahead (h : Ahead s (t :: u :: ts))
    (hNoMark : t = .word "defer" false → ∀ m, u ≠ .mark m) :
    qualifiesImport "defer" false s = .ok (false, s) := by
  by_cases hHere : t = .word "defer" false
  · have hMark := hNoMark hHere
    rw [hHere] at h
    have hNext := h.advanced
    apply looking_of_eq_ok (advanced s)
    rw [bind_of_eq_ok (isWord_of_ahead h _), beq_self_eq_true, if_neg (by decide),
      bind_of_eq_ok (advance_eq s), bind_of_eq_ok (isMark_of_ahead hNext _),
      beq_eq_false_iff_ne.mpr (hMark _), if_neg (by decide),
      bind_of_eq_ok (isMark_of_ahead hNext _), beq_eq_false_iff_ne.mpr (hMark _),
      if_neg (by decide), bind_of_eq_ok (lexeme_of_ahead hNext)]
    rfl
  · exact qualifiesImport_of_ne false h hHere

/-- The word `source` in front of `from` and a text is a name. -/
theorem qualifiesImport_source_of_ahead {value : String} {lossy : Bool}
    (h : Ahead s (t :: .word "from" false :: .string value lossy :: ts)) :
    qualifiesImport "source" false s = .ok (false, s) := by
  by_cases hHere : t = .word "source" false
  · rw [hHere] at h
    have hFrom := h.advanced
    have hText := hFrom.advanced
    apply looking_of_eq_ok (advanced (advanced s))
    rw [bind_of_eq_ok (isWord_of_ahead h _), beq_self_eq_true, if_neg (by decide),
      bind_of_eq_ok (advance_eq s), bind_of_eq_ok (isMark_of_ahead hFrom _),
      if_neg (by decide), bind_of_eq_ok (isMark_of_ahead hFrom _), if_neg (by decide),
      bind_of_eq_ok (lexeme_of_ahead hFrom), if_neg (by decide),
      bind_of_eq_ok (eatWord_of_ahead hFrom), if_neg (by decide), isWord_of_ahead hText]
    rfl
  · exact qualifiesImport_of_ne false h hHere

/-- The word `source` in front of a name says something, also if the name is `from`. -/
theorem qualifiesImport_source_of_name {w : String} {escaped : Bool}
    (h : Ahead s (.word "source" false :: .word w escaped :: .word "from" false :: ts))
    (hReserved : w ∉ reservedWords) : qualifiesImport "source" false s = .ok (true, s) := by
  have hName := h.advanced
  have hFrom := hName.advanced
  have hIdentifier : (("source" == "defer") || !isIdentifier (.word w escaped)) = false := by
    simpa [isIdentifier] using hReserved
  by_cases hHere : Lexeme.word w escaped = .word "from" false
  · rw [hHere] at h hName
    apply looking_of_eq_ok (advanced (advanced s))
    rw [bind_of_eq_ok (isWord_of_ahead h _), beq_self_eq_true, if_neg (by decide),
      bind_of_eq_ok (advance_eq s), bind_of_eq_ok (isMark_of_ahead hName _), if_neg (by decide),
      bind_of_eq_ok (isMark_of_ahead hName _), if_neg (by decide),
      bind_of_eq_ok (lexeme_of_ahead hName), if_neg (by decide),
      bind_of_eq_ok (eatWord_of_ahead hName), if_neg (by decide), isWord_of_ahead hFrom]
    rfl
  · apply looking_of_eq_ok (advanced s)
    rw [bind_of_eq_ok (isWord_of_ahead h _), beq_self_eq_true, if_neg (by decide),
      bind_of_eq_ok (advance_eq s), bind_of_eq_ok (isMark_of_ahead hName _), if_neg (by simp),
      bind_of_eq_ok (isMark_of_ahead hName _), if_neg (by simp),
      bind_of_eq_ok (lexeme_of_ahead hName), hIdentifier, if_neg (by decide),
      bind_of_eq_ok (eatWord_of_ne hName hHere)]
    rfl

/-! ## From the names on -/

/-- The names of an import, and where they come from. -/
def importNames (place : Nat) (typeOnly : Bool) (phase : Option String) : Parser Node := do
  let inner ← start
  if isIdentifier (← lexeme) then
    let name ← identifier
    if (← get).extended && (← isMark "=") then return ← importEquals place typeOnly name
    let first ← node inner .importDefault [name]
    let more ← if ← eatMark "," then importSome typeOnly else pure []
    let g ← node inner .group (first :: more)
    expectWord "from"
    importSource place typeOnly phase g
  else
    let ns ← importSome typeOnly
    let g ← node inner .group ns
    expectWord "from"
    importSource place typeOnly phase g

/-- An import from what says in which phase it happens. -/
def importInPhase (place : Nat) (typeOnly : Bool) : Parser Node := do
  let phase ← do
    if typeOnly then pure none
    else if ← qualifiesImport "defer" false then advance; pure (some "defer")
    else if ← qualifiesImport "source" false then advance; pure (some "source")
    else pure none
  importNames place typeOnly phase

/-- An import from what it names, or from its source if it names nothing. -/
def importBehind (place : Nat) : Parser Node := do
  match ← lexeme with
  | .string _ _ => importSource place false none .absent
  | _ =>
    let typeOnly ← do
      if (← get).extended && (← qualifiesImport "type" true) then advance; pure true
      else pure false
    importInPhase place typeOnly

theorem importFrom_eq (place : Nat) : importFrom place = (do
    if ← namesNothing then advance
    importBehind place) :=
  rfl

/-- The name of a default, and where it comes from. -/
theorem importNames_of_ahead {name value : String} {escaped lossy : Bool} (place : Nat)
    (phase : Option String) (hTypes : s.extended = false)
    (h : Ahead s (.word name escaped :: .word "from" false :: .string value lossy :: .mark ";" ::
      t :: ts)) (hReserved : name ∉ reservedWords) :
    ∃ n, IsPhaseImport phase name value lossy n ∧ importNames place false phase s =
      .ok (n, advanced (advanced (advanced (advanced (checked name s))))) := by
  have hIdentifier : isIdentifier (.word name escaped) = true := by
    simpa [isIdentifier] using hReserved
  obtain ⟨span, hName⟩ := identifier_of_ahead h hReserved
  have hFrom : Ahead (advanced (checked name s)) (.word "from" false :: .string value lossy ::
      .mark ";" :: t :: ts) :=
    (h.of_eq (token_checked name s) (after_checked name s)).advanced
  have hPlain : (advanced (checked name s)).extended = false := by
    rw [← hTypes, ← extended_checked name s]
    rfl
  let inner : Span := ⟨s.token.start, (advanced (checked name s)).lastStop⟩
  obtain ⟨whole, source, hSource⟩ := importSource_of_ahead place false phase
    (.mk .group inner [.mk .importDefault inner [.mk (.name name) span []]]) hFrom.advanced
  refine ⟨_, ⟨whole, inner, inner, span, source, rfl⟩, ?_⟩
  rw [importNames, bind_of_eq_ok (start_eq s), bind_of_eq_ok (lexeme_of_ahead h),
    if_pos hIdentifier, bind_of_eq_ok hName, bind_of_eq_ok (get_eq _),
    bind_of_eq_ok (isMark_of_ahead hFrom _), hPlain, Bool.false_and, if_neg (by decide),
    bind_of_eq_ok (node_eq _ _ _ _), bind_of_eq_ok (eatMark_of_ne hFrom (by simp)),
    if_neg (by decide), bind_of_eq_ok (pure_eq _ _)]
  dsimp only
  rw [bind_of_eq_ok (node_eq _ _ _ _), bind_of_eq_ok (expectWord_of_ahead hFrom)]
  exact hSource

/-- Where no types are read, no import is one of types. -/
theorem importBehind_eq_importInPhase (place : Nat) (hTypes : s.extended = false)
    (h : Ahead s (t :: ts)) (hText : ∀ v l, t ≠ .string v l) :
    importBehind place s = importInPhase place false s := by
  obtain ⟨ofTypes, hOfTypes⟩ := exists_qualifiesImport "type" true s
  rw [importBehind, bind_of_eq_ok (lexeme_of_ahead h)]
  split
  · next value lossy => exact absurd rfl (hText value lossy)
  · rw [bind_of_eq_ok (get_eq s), bind_of_eq_ok hOfTypes, hTypes, Bool.false_and,
      if_neg (by decide), bind_of_eq_ok (pure_eq _ s)]

/-- No word in front of `from` and a text is anything but a name. -/
theorem importInPhase_of_ahead {value : String} {lossy : Bool} (place : Nat)
    (h : Ahead s (t :: .word "from" false :: .string value lossy :: ts)) :
    importInPhase place false s = importNames place false none s := by
  have hDefer := qualifiesImport_defer_of_ahead h fun _ => by simp
  have hSource := qualifiesImport_source_of_ahead h
  rw [importInPhase, if_neg (by decide), bind_of_eq_ok hDefer, if_neg (by decide),
    bind_of_eq_ok hSource, if_neg (by decide), bind_of_eq_ok (pure_eq _ s)]

theorem importInPhase_of_name {w : String} {escaped : Bool} (place : Nat)
    (h : Ahead s (.word "source" false :: .word w escaped :: .word "from" false :: ts))
    (hReserved : w ∉ reservedWords) :
    importInPhase place false s = importNames place false (some "source") (advanced s) := by
  have hDefer := qualifiesImport_defer_of_ahead h fun _ => by simp
  have hSource := qualifiesImport_source_of_name h hReserved
  rw [importInPhase, if_neg (by decide), bind_of_eq_ok hDefer, if_neg (by decide),
    bind_of_eq_ok hSource, if_pos rfl, bind_of_eq_ok (advance_eq s), bind_of_eq_ok (pure_eq _ _)]

/-- The word `from` without a text behind it is a name. -/
theorem namesNothing_of_ahead (h : Ahead s (t :: u :: ts))
    (hText : t = .word "from" false → ∀ v l, u ≠ .string v l) :
    namesNothing s = .ok (false, s) := by
  obtain ⟨next, hNext, hLexeme⟩ := following_of_ahead h
  rw [namesNothing, bind_of_eq_ok hNext, bind_of_eq_ok (isWord_of_ahead h _), hLexeme]
  by_cases hFrom : t = .word "from" false
  · split
    · next value lossy => exact absurd rfl (hText hFrom value lossy)
    · rw [Bool.and_false]
      rfl
  · rw [beq_eq_false_iff_ne.mpr hFrom, Bool.false_and]
    rfl

/-- What an import of a default is read as, from the name on. -/
theorem importFrom_of_ahead {name value : String} {escaped lossy : Bool} (place : Nat)
    (hTypes : s.extended = false)
    (h : Ahead s (.word name escaped :: .word "from" false :: .string value lossy :: .mark ";" ::
      t :: ts)) (hReserved : name ∉ reservedWords) :
    ∃ n, IsPhaseImport none name value lossy n ∧
      importFrom place s = .ok (n, advanced (advanced (advanced (advanced (checked name s))))) := by
  obtain ⟨n, hDefault, hRead⟩ := importNames_of_ahead place none hTypes h hReserved
  refine ⟨n, hDefault, ?_⟩
  rw [importFrom_eq, bind_of_eq_ok (namesNothing_of_ahead h fun _ => by simp), if_neg (by decide)]
  exact (importBehind_eq_importInPhase place hTypes h (by simp)).trans
    ((importInPhase_of_ahead place h).trans hRead)

/-- What it is read as with the word `source` in front of the name. -/
theorem importFrom_of_ahead_source {name value : String} {escaped lossy : Bool} (place : Nat)
    (hTypes : s.extended = false)
    (h : Ahead s (.word "source" false :: .word name escaped :: .word "from" false ::
      .string value lossy :: .mark ";" :: t :: ts)) (hReserved : name ∉ reservedWords) :
    ∃ n, IsPhaseImport (some "source") name value lossy n ∧ importFrom place s =
      .ok (n, advanced (advanced (advanced (advanced (checked name (advanced s)))))) := by
  obtain ⟨n, hDefault, hRead⟩ := importNames_of_ahead place (some "source") (s := advanced s) hTypes
    h.advanced hReserved
  refine ⟨n, hDefault, ?_⟩
  rw [importFrom_eq, bind_of_eq_ok (namesNothing_of_ahead h fun _ => by simp), if_neg (by decide)]
  exact (importBehind_eq_importInPhase place hTypes h (by simp)).trans
    ((importInPhase_of_name place h hReserved).trans hRead)

/-- The word `from` in front of a text is passed over. -/
theorem importFrom_of_ahead_bare {value : String} {lossy : Bool} (place : Nat)
    (h : Ahead s (.word "from" false :: .string value lossy :: .mark ";" :: t :: ts)) :
    ∃ n, IsBareImport value lossy n ∧
      importFrom place s = .ok (n, advanced (advanced (advanced s))) := by
  have hNothing : namesNothing s = .ok (true, s) := by
    obtain ⟨next, hNext, hLexeme⟩ := following_of_ahead h
    rw [namesNothing, bind_of_eq_ok hNext, bind_of_eq_ok (isWord_of_ahead h _), hLexeme]
    rfl
  obtain ⟨whole, source, hSource⟩ := importSource_of_ahead place false none .absent h.advanced
  refine ⟨_, ⟨whole, source, rfl⟩, ?_⟩
  rw [importFrom_eq, bind_of_eq_ok hNothing, if_pos rfl, bind_of_eq_ok (advance_eq s)]
  show importBehind place (advanced s) = _
  rw [importBehind, bind_of_eq_ok (lexeme_of_ahead h.advanced)]
  exact hSource

/-! ## A whole script -/

/-- Whether a statement is an import. -/
def IsImport (n : Node) : Prop := ∃ typeOnly phase, n.kind = .importFrom typeOnly phase

section

variable {n : Node} {rules : Rules}

theorem plainStatement_eq_importFrom (rules : Rules)
    (h : Ahead s (.word "import" false :: t :: ts)) (hPoint : t ≠ .mark ".")
    (hOpen : t ≠ .mark "(") :
    plainStatement rules s = importFrom s.token.start (advanced s) := by
  obtain ⟨next, hNext, hLexeme⟩ := following_of_ahead h
  rw [plainStatement, bind_of_eq_ok (start_eq s), bind_of_eq_ok hNext]
  dsimp only
  rw [bind_of_eq_ok (lexeme_of_ahead h)]
  dsimp only
  show (if next.lexeme == .mark "." || next.lexeme == .mark "(" then expressionStatement rules
    else do advance; importFrom s.token.start : Parser Node) s = _
  rw [hLexeme, if_neg (by simp [hPoint, hOpen]), bind_of_eq_ok (advance_eq s)]

/-- A remark about effects says nothing about an import. -/
theorem markDeclared_of_isImport (h : IsImport n) : markDeclared n = n := by
  obtain ⟨typeOnly, phase, hKind⟩ := h
  obtain ⟨kind, span, children⟩ := n
  obtain rfl : kind = .importFrom typeOnly phase := hKind
  rfl

theorem statement_of_ahead (h : Ahead s (.word "import" false :: t :: ts))
    (hPoint : t ≠ .mark ".") (hOpen : t ≠ .mark "(") (hImport : IsImport n)
    (hRead : importFrom s.token.start (advanced s) = .ok (n, s')) :
    statement rules s = .ok (n, s') := by
  have hToken : token s = .ok (s.token, s) := rfl
  rw [← plainStatement_eq_importFrom rules h hPoint hOpen] at hRead
  rw [statement, bind_of_eq_ok hToken, bind_of_eq_ok hRead, markDeclared_of_isImport hImport,
    ite_self]
  rfl

theorem statements_of_ahead {w : String} (h : Ahead s (.word w false :: ts)) (hImport : IsImport n)
    (hRead : rules .statement s = .ok (n, s')) (hEnd : Ahead s' [.finish]) {limit : Nat}
    (hLimit : s.limit = limit + 2) : statements rules s = .ok ([n], s') := by
  have hFirst : statementStep rules (true, []) s = .ok (some (false, [n]), s') := by
    rw [statementStep, bind_of_eq_ok (isMark_of_ahead h _), bind_of_eq_ok (lexeme_of_ahead h),
      if_neg (by simp), bind_of_eq_ok (get_eq s), bind_of_eq_ok hRead]
    obtain ⟨typeOnly, phase, hKind⟩ := hImport
    obtain ⟨kind, span, children⟩ := n
    obtain rfl : kind = .importFrom typeOnly phase := hKind
    rfl
  have hLast : statementStep rules (false, [n]) s' = .ok (none, s') := by
    rw [statementStep, bind_of_eq_ok (isMark_of_ahead hEnd _), bind_of_eq_ok (lexeme_of_ahead hEnd)]
    rfl
  have hAll : iterate (statementStep rules) (true, []) s = .ok ((false, [n]), s') := by
    rw [iterate, bind_of_eq_ok (get_eq s), hLimit, iterateWithin_of_some hFirst,
      iterateWithin_of_none hLast]
  rw [statements_eq, bind_of_eq_ok hAll]
  rfl

theorem program_of_ahead {w : String} (h : Ahead s (.word w false :: ts)) (hImport : IsImport n)
    (hRead : rules .statement s = .ok (n, s')) (hEnd : Ahead s' [.finish]) {limit : Nat}
    (hLimit : s.limit = limit + 2) (hashbang : Option String) :
    program rules hashbang s =
      .ok (.mk (.program hashbang) ⟨0, s'.token.start⟩ [n], s') := by
  have hToken : token s' = .ok (s'.token, s') := rfl
  rw [program, bind_of_eq_ok (statements_of_ahead h hImport hRead hEnd hLimit),
    bind_of_eq_ok hToken, hEnd.1]
  rfl

/-- **What a script that is one import is read as.** A complaint on the way refuses it. -/
theorem parse?_of_importFrom {source : String}
    (hReads : Reads source.toList (.word "import" false :: t :: ts))
    (hFirst : hashbang? source.toList = none) (hPoint : t ≠ .mark ".") (hOpen : t ≠ .mark "(")
    (hImport : IsImport n) (hFinished : n.any isUnfinished = false)
    (hRead : importFrom (initial {} false source.toList).token.start
      (advanced (initial {} false source.toList)) = .ok (n, s'))
    (hEnd : Ahead s' [.finish]) :
    ∃ span comments, parse? false source =
      if s'.complaint.isSome then none else some ⟨.mk (.program none) span [n], comments⟩ := by
  have hAhead := ahead_initial hReads hFirst {} false
  have hRules : rulesWithin (4 * source.toList.length + 16) .statement
      (initial {} false source.toList) = .ok (n, s') :=
    statement_of_ahead hAhead hPoint hOpen hImport hRead
  have hWhole : program (rulesWithin (4 * source.toList.length + 16))
      ((hashbang? source.toList).map String.ofList) (initial {} false source.toList) =
        .ok (.mk (.program none) ⟨0, s'.token.start⟩ [n], s') := by
    rw [hFirst]
    exact program_of_ahead hAhead hImport hRules hEnd rfl none
  have hUnfinished : ∀ span, (Node.mk (.program none) span [n]).any isUnfinished = false := by
    intro span
    simpa [Node.any, Node.anyAmong, isUnfinished] using hFinished
  refine ⟨⟨0, s'.token.start⟩, s'.after.notes.done.reverse, ?_⟩
  rw [parse?, parseIn_of_program hWhole, hUnfinished, if_neg (by decide)]
  cases s'.complaint <;> rfl

end

/-! ## The imports that are read -/

/-- The lexemes behind the names of an import that is a whole script. -/
def sourceLexemes (value : String) : List Lexeme :=
  [.word "from" false, .string value false, .mark ";", .finish]

section

variable {name value source : String} {phase : Option String} {n : Node}

/-- Behind a name stands a complaint if the name is an operator. -/
theorem complaint_checked (h : s.complaint = none) (hContext : s.context = {}) :
    (checked name s).complaint.isSome = (name == "await") := by
  have hOperator : isOperator name s.context = (name == "await") := by simp [hContext, isOperator]
  rw [← hOperator, checked]
  split
  · next hHere => rw [hHere, h]; rfl
  · next hHere => rw [h, Option.isSome_none, Bool.eq_false_of_not_eq_true hHere]

theorem isImport_of_isPhaseImport (h : IsPhaseImport phase name value false n) : IsImport n := by
  obtain ⟨_, _, _, _, _, rfl⟩ := h
  exact ⟨false, phase, rfl⟩

theorem not_isUnfinished_of_isPhaseImport (h : IsPhaseImport phase name value false n) :
    n.any isUnfinished = false := by
  obtain ⟨_, _, _, _, _, rfl⟩ := h
  rfl

theorem isImport_of_isBareImport (h : IsBareImport value false n) : IsImport n := by
  obtain ⟨_, _, rfl⟩ := h
  exact ⟨false, none, rfl⟩

theorem not_isUnfinished_of_isBareImport (h : IsBareImport value false n) :
    n.any isUnfinished = false := by
  obtain ⟨_, _, rfl⟩ := h
  rfl

/-- A script that is the import of a default in some phase, from where the name is on. -/
theorem parse?_of_isPhaseImport {s : State}
    (hReads : Reads source.toList (.word "import" false :: t :: ts))
    (hFirst : hashbang? source.toList = none) (hPoint : t ≠ .mark ".") (hOpen : t ≠ .mark "(")
    (hName : Ahead s (.word name false :: sourceLexemes value)) (hClean : s.complaint = none)
    (hContext : s.context = {}) (hPhase : IsPhaseImport phase name value false n)
    (hRead : importFrom (initial {} false source.toList).token.start
        (advanced (initial {} false source.toList)) =
      .ok (n, advanced (advanced (advanced (advanced (checked name s)))))) :
    ∃ span comments, parse? false source =
      if name = "await" then none else some ⟨.mk (.program none) span [n], comments⟩ := by
  have hFrom : Ahead (checked name s) _ :=
    hName.of_eq (token_checked name s) (after_checked name s)
  obtain ⟨span, comments, hParse⟩ := parse?_of_importFrom hReads hFirst hPoint hOpen
    (isImport_of_isPhaseImport hPhase) (not_isUnfinished_of_isPhaseImport hPhase) hRead
    hFrom.advanced.advanced.advanced.advanced
  refine ⟨span, comments, ?_⟩
  rw [hParse]
  show (if (checked name s).complaint.isSome then _ else _) = _
  rw [complaint_checked hClean hContext]
  simp only [beq_iff_eq]

/-- **An import of a default is read as that import**, whatever its name and its specifier are,
unless the name is an operator. -/
theorem parse?_of_reads
    (hReads : Reads source.toList
      (.word "import" false :: .word name false :: sourceLexemes value))
    (hFirst : hashbang? source.toList = none) (hReserved : name ∉ reservedWords) :
    ∃ n span comments, IsDefaultImport name value false n ∧ parse? false source =
      if name = "await" then none else some ⟨.mk (.program none) span [n], comments⟩ := by
  have hName := (ahead_initial hReads hFirst {} false).advanced
  obtain ⟨n, hDefault, hRead⟩ := importFrom_of_ahead _ rfl hName hReserved
  obtain ⟨span, comments, hParse⟩ :=
    parse?_of_isPhaseImport hReads hFirst (by simp) (by simp) hName rfl rfl hDefault hRead
  exact ⟨n, span, comments, hDefault, hParse⟩

/-- The same with the word `source` in front of the name. -/
theorem parse?_of_reads_source
    (hReads : Reads source.toList
      (.word "import" false :: .word "source" false :: .word name false :: sourceLexemes value))
    (hFirst : hashbang? source.toList = none) (hReserved : name ∉ reservedWords) :
    ∃ n span comments, IsPhaseImport (some "source") name value false n ∧ parse? false source =
      if name = "await" then none else some ⟨.mk (.program none) span [n], comments⟩ := by
  have hSource := (ahead_initial hReads hFirst {} false).advanced
  obtain ⟨n, hPhase, hRead⟩ := importFrom_of_ahead_source _ rfl hSource hReserved
  obtain ⟨span, comments, hParse⟩ := parse?_of_isPhaseImport hReads hFirst (by simp) (by simp)
    hSource.advanced rfl rfl hPhase hRead
  exact ⟨n, span, comments, hPhase, hParse⟩

/-- **An import without a name is read as an import of nothing**, although the word `from` stands
in it. -/
theorem parse?_of_reads_bare
    (hReads : Reads source.toList (.word "import" false :: sourceLexemes value))
    (hFirst : hashbang? source.toList = none) :
    ∃ n span comments, IsBareImport value false n ∧
      parse? false source = some ⟨.mk (.program none) span [n], comments⟩ := by
  have hFrom := (ahead_initial hReads hFirst {} false).advanced
  obtain ⟨n, hBare, hRead⟩ := importFrom_of_ahead_bare _ hFrom
  obtain ⟨span, comments, hParse⟩ := parse?_of_importFrom hReads hFirst (by simp) (by simp)
    (isImport_of_isBareImport hBare) (not_isUnfinished_of_isBareImport hBare) hRead
    hFrom.advanced.advanced.advanced
  exact ⟨n, span, comments, hBare, hParse⟩

end

end Parser

end PagePreview.Script
