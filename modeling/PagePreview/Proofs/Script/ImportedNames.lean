import PagePreview.Proofs.Script.ImportDeclarations
import PagePreview.Proofs.Script.Places

/-!
# The name under which a default is imported

The name of an import is read from whatever stands behind the word `import`, and
a script that begins with that word can go on in many ways.  If its first
statement binds a default to a name, though, then the name is an identifier
(`namesIdentifier_of_parse?`): it has been read as a word, every word is a name,
and an identifier is none of the reserved words.
-/

namespace PagePreview.Script.Parser

variable {P : State → Prop}

/-! ## Identifiers -/

/-- What is read as an identifier is a name, and no keyword. -/
def IsIdentifier (n : Node) : Prop :=
  ∃ name span, n = .mk (.name name) span [] ∧ isName name.toList = true ∧ name ∉ reservedWords

theorem ensures_identifier : Ensures Scanned identifier fun n _ => IsIdentifier n := by
  unfold identifier
  refine ensures_start.bind fun place => ensures_lexeme.bind fun l => ?_
  split
  · next w escaped =>
    refine .of_state (A := isName w.toList = true) (fun s h => isName_of_scanned h.1 h.2) ?_
    intro hName
    dsimp only
    split
    · exact ensures_refuse_bind
    · next hReserved =>
      have hWord : w ∉ reservedWords := by simpa using hReserved
      have hNode : Ensures (fun _ => True) (advance >>= fun _ => node place (.name w))
          fun n _ => IsIdentifier n :=
        .of_bind fun _ => ensures_node place fun span => ⟨w, span, rfl, hName, hWord⟩
      refine .of_bind fun c => ?_
      split
      · exact .of_bind fun _ => hNode
      · exact hNode
  · exact ensures_refuse

/-! ## The parts of an import -/

/-- Whether none of some parts is the import of a default. -/
def NoDefault (ns : List Node) : Prop := ∀ n ∈ ns, n.kind ≠ .importDefault

/-- No name in braces is the default. -/
theorem ensures_importSpecifier (ofTypes : Bool) :
    Ensures P (importSpecifier ofTypes) fun n _ => n.kind ≠ .importDefault := by
  unfold importSpecifier
  refine .of_bind fun place => .of_bind fun parts => ?_
  obtain ⟨typeOnly, imported, local_⟩ := parts
  have hNode : Ensures (fun _ => True) (checkBound local_ >>= fun _ =>
      node place (.importNamed typeOnly) [imported, local_])
      fun n _ => n.kind ≠ .importDefault :=
    .of_bind fun _ => ensures_node place fun span => by simp [Node.kind]
  dsimp only
  split
  · exact .of_bind fun _ => hNode
  · exact hNode

theorem ensures_importSome (ofTypes : Bool) :
    Ensures P (importSome ofTypes) fun ns _ => NoDefault ns := by
  unfold importSome
  refine .of_bind fun place => .of_bind fun all => ?_
  split
  · have hNode (name : Node) : Ensures (fun _ => True) (node place .importNamespace [name])
        fun n _ => n.kind ≠ .importDefault :=
      ensures_node place fun span => by simp [Node.kind]
    refine .of_bind fun _ => .of_bind fun name => (hNode name).bind_fact fun n hn => ?_
    exact ensures_pure fun _ _ => List.forall_mem_singleton.mpr hn
  · exact (ensures_bracketed _ _ (ensures_importSpecifier ofTypes)).bind_fact fun n hn =>
      ensures_pure fun _ _ => hn

theorem ensures_importSource (place : Nat) (typeOnly : Bool) (phase : Option String) (g : Node) :
    Ensures P (importSource place typeOnly phase g) fun n _ =>
      ∃ span rest, n = .mk (.importFrom typeOnly phase) span (g :: rest) :=
  .of_bind fun source => .of_bind fun attributes => .of_bind fun _ =>
    ensures_node place fun span => ⟨span, [source, attributes], rfl⟩

theorem ensures_importEquals (place : Nat) (typeOnly : Bool) (name : Node) :
    Ensures P (importEquals place typeOnly name) fun n _ => n.kind = .importEquals typeOnly := by
  unfold importEquals
  have hNode (r : Node) : Ensures (fun _ => True)
      (semicolon >>= fun _ => node place (.importEquals typeOnly) [name, r])
      fun n _ => n.kind = .importEquals typeOnly :=
    .of_bind fun _ => ensures_node place fun span => rfl
  refine .of_bind fun _ => .of_bind fun inner => .of_bind fun _ => .of_bind fun _ => ?_
  split
  · exact .of_bind fun _ => .of_bind fun _ => .of_bind fun s => .of_bind fun _ =>
      .of_bind fun r => hNode r
  · exact .of_bind fun r => hNode r

/-! ## What an import binds -/

/-- The kind of the node at a place. -/
def kindAt? (n : Node) (place : List Nat) : Option Kind := (n.at? place).map Node.kind

/-- Whether a statement is an import, the first part of which is a default under a name. -/
structure BindsDefault (name : String) (n : Node) : Prop where
  isImport : ∃ typeOnly phase, n.kind = .importFrom typeOnly phase
  isDefault : kindAt? n [0, 0] = some .importDefault
  isNamed : kindAt? n [0, 0, 0] = some (.name name)

theorem bindsDefault_of_isDefaultImport {name specifier : String} {lossy : Bool} {n : Node}
    (h : IsDefaultImport name specifier lossy n) : BindsDefault name n := by
  obtain ⟨_, _, _, _, _, rfl⟩ := h
  exact ⟨⟨false, none, rfl⟩, rfl, rfl⟩

/-- If a statement binds a default, then to an identifier. -/
def NamesIdentifier (n : Node) : Prop :=
  ∀ name, BindsDefault name n → isName name.toList = true ∧ name ∉ reservedWords

theorem namesIdentifier_of_kind {n : Node}
    (h : ∀ typeOnly phase, n.kind ≠ .importFrom typeOnly phase) : NamesIdentifier n := by
  rintro name ⟨⟨typeOnly, phase, hKind⟩, -, -⟩
  exact absurd hKind (h typeOnly phase)

theorem namesIdentifier_of_identifier {kind : Kind} {name : Node} (h : IsIdentifier name)
    (whole group first : Span) (more rest : List Node) :
    NamesIdentifier (.mk kind whole (.mk .group group
      (.mk .importDefault first [name] :: more) :: rest)) := by
  rintro other ⟨-, -, hNamed⟩
  obtain ⟨w, span, rfl, hName, hReserved⟩ := h
  obtain rfl : w = other := by simpa [kindAt?, Node.at?, Node.children, Node.kind] using hNamed
  exact ⟨hName, hReserved⟩

theorem namesIdentifier_of_noDefault {kind : Kind} {ns : List Node} (h : NoDefault ns)
    (whole group : Span) (rest : List Node) :
    NamesIdentifier (.mk kind whole (.mk .group group ns :: rest)) := by
  rintro name ⟨-, hDefault, -⟩
  cases ns with
  | nil => simp [kindAt?, Node.at?, Node.children] at hDefault
  | cons n ns =>
    refine absurd ?_ (h n List.mem_cons_self)
    simpa [kindAt?, Node.at?, Node.children] using hDefault

/-- The group of the names that have been read, and where they come from. -/
theorem ensures_group (inner place : Nat) (typeOnly : Bool) (phase : Option String)
    {ns : List Node}
    (h : ∀ kind whole group rest, NamesIdentifier (.mk kind whole (.mk .group group ns :: rest))) :
    Ensures P (do
      let g ← node inner .group ns
      expectWord "from"
      importSource place typeOnly phase g) fun n _ => NamesIdentifier n := by
  refine (ensures_node (T := fun g => ∃ span, g = .mk .group span ns) inner
    fun span => ⟨span, rfl⟩).bind_fact ?_
  rintro g ⟨group, rfl⟩
  refine .of_bind fun _ => (ensures_importSource _ _ _ _).mono (fun _ _ => trivial) ?_
  rintro n s ⟨whole, rest, rfl⟩
  exact h _ whole group rest

theorem ensures_importNames (place : Nat) (typeOnly : Bool) (phase : Option String) :
    Ensures Scanned (importNames place typeOnly phase) fun n _ => NamesIdentifier n := by
  unfold importNames
  refine ensures_start.bind fun inner => (ensures_look fun _ => ⟨_, rfl⟩).bind fun l => ?_
  split
  · refine ensures_identifier.bind_fact fun name hName => ?_
    refine .of_bind fun _ => .of_bind fun isEquals => ?_
    split
    · refine (ensures_importEquals _ _ _).mono (fun _ h => h) fun n _ hKind => ?_
      exact namesIdentifier_of_kind (by simp [hKind])
    · refine (ensures_node (T := fun n => ∃ span, n = .mk .importDefault span [name]) inner
        fun span => ⟨span, rfl⟩).bind_fact ?_
      rintro n ⟨first, rfl⟩
      have hGroup (more : List Node) := ensures_group (P := fun _ => True) inner place typeOnly
        phase fun _ whole group rest =>
          namesIdentifier_of_identifier hName whole group first more rest
      refine .of_bind fun comma => ?_
      split
      · exact .of_bind fun more => hGroup more
      · exact .of_bind fun more => hGroup more
  · refine (ensures_importSome typeOnly).bind_fact fun ns hns => ?_
    exact ensures_group inner place typeOnly phase
      fun _ whole group rest => namesIdentifier_of_noDefault hns whole group rest

/-- A name of no phase, with the words in front of it that name one. -/
theorem ensures_importInPhase (place : Nat) (typeOnly : Bool) :
    Ensures Scanned (importInPhase place typeOnly) fun n _ => NamesIdentifier n := by
  have hNames (phase : Option String) : Ensures Scanned
      (pure phase >>= fun phase => importNames place typeOnly phase)
      fun n _ => NamesIdentifier n :=
    (ensures_pure fun _ h => h).bind fun phase => ensures_importNames place typeOnly phase
  unfold importInPhase
  dsimp only
  split
  · exact hNames none
  · refine (ensures_look (exists_qualifiesImport _ _)).bind fun defers => ?_
    split
    · exact ensures_advance.bind fun _ => hNames _
    · refine (ensures_look (exists_qualifiesImport _ _)).bind fun isSource => ?_
      split
      · exact ensures_advance.bind fun _ => hNames _
      · exact hNames none

theorem ensures_importBehind (place : Nat) :
    Ensures Scanned (importBehind place) fun n _ => NamesIdentifier n := by
  unfold importBehind
  refine ensures_lexeme.bind fun l => ?_
  split
  · refine (ensures_importSource _ _ _ _).mono (fun _ h => h) ?_
    rintro n s ⟨whole, rest, rfl⟩ name ⟨-, hDefault, -⟩
    simp [kindAt?, Node.at?, Node.children, Node.absent] at hDefault
  · have hPhase (typeOnly : Bool) : Ensures Scanned
        (pure typeOnly >>= fun typeOnly => importInPhase place typeOnly)
        fun n _ => NamesIdentifier n :=
      (ensures_pure fun _ h => h).bind fun typeOnly => ensures_importInPhase place typeOnly
    refine Ensures.mono ?_ (fun s h => h.1) fun _ _ h => h
    refine ensures_get.bind fun s => ?_
    refine (ensures_look (exists_qualifiesImport _ _)).bind fun ofTypes => ?_
    dsimp only
    split
    · exact ensures_advance.bind fun _ => hPhase true
    · exact hPhase false

theorem ensures_importFrom (place : Nat) :
    Ensures Scanned (importFrom place) fun n _ => NamesIdentifier n := by
  rw [importFrom_eq]
  refine (ensures_look fun _ => ⟨_, rfl⟩).bind fun nothing => ?_
  dsimp only
  split
  · exact ensures_advance.bind fun _ => ensures_importBehind place
  · exact ensures_importBehind place

/-! ## A script that begins with an import -/

theorem ensures_expressionStatement (rules : Rules) :
    Ensures P (expressionStatement rules) fun n _ => NamesIdentifier n := by
  unfold expressionStatement
  refine .of_bind fun place => .of_bind fun e => .of_bind fun isColon => ?_
  split
  · exact .of_bind fun _ => .of_bind fun body =>
      ensures_node place fun span => namesIdentifier_of_kind (by simp [Node.kind])
  · exact .of_bind fun _ =>
      ensures_node place fun span => namesIdentifier_of_kind (by simp [Node.kind])

/-- Where the current token is the word `import`. -/
def AtImport (s : State) : Prop := s.token.lexeme = .word "import" false

theorem ensures_plainStatement (rules : Rules) :
    Ensures AtImport (plainStatement rules) fun n _ => NamesIdentifier n := by
  unfold plainStatement
  refine ensures_start.bind fun place => ensures_following.bind fun t =>
    ensures_lexeme.bind fun l => ?_
  refine .of_state (A := l = .word "import" false) (fun s h => h.2.symm.trans h.1) ?_
  rintro rfl
  show Ensures _ (if t.lexeme == .mark "." || t.lexeme == .mark "(" then expressionStatement rules
    else do advance; importFrom place : Parser Node) _
  split
  · exact ensures_expressionStatement rules
  · exact ensures_advance.bind fun _ => ensures_importFrom place

/-- A remark about effects changes no import, and makes nothing an import. -/
theorem namesIdentifier_markDeclared {n : Node} (h : NamesIdentifier n) :
    NamesIdentifier (markDeclared n) := by
  fun_cases markDeclared n
  case case5 => exact h
  all_goals exact namesIdentifier_of_kind (by simp [Node.kind, markEffectFree])

theorem ensures_statement (rules : Rules) :
    Ensures AtImport (statement rules) fun n _ => NamesIdentifier n := by
  unfold statement
  refine ensures_token.bind fun t => (ensures_plainStatement rules).bind_fact fun n hn => ?_
  apply ensures_pure
  intro s _
  split
  · exact namesIdentifier_markDeclared hn
  · exact hn

/-- **A name under which a default is imported at the beginning of a script is an identifier**,
however the script goes on. -/
theorem namesIdentifier_of_parse? {source : String} {p : Program} {n : Node}
    (h : parse? false source = some p) (hReads : Reads source.toList [.word "import" false])
    (hFirst : hashbang? source.toList = none) (hHead : p.root.children.head? = some n) :
    NamesIdentifier n := by
  obtain ⟨s, hProgram⟩ := exists_program_of_parseIn (parseIn_of_parse? h)
  have hAhead := ahead_initial hReads hFirst {} false
  have hStatement : Ensures AtImport (rulesWithin (4 * source.toList.length + 16) .statement)
      fun n _ => NamesIdentifier n :=
    ensures_statement _
  have hStatements := ensures_program ((hashbang? source.toList).map String.ofList) hStatement
    fun _ _ _ _ => namesIdentifier_of_kind (by simp [Node.kind])
  exact (hStatements _ _ _ hAhead.1 hProgram).2 n hHead

end PagePreview.Script.Parser
