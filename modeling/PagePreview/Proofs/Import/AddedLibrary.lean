import Mathlib.Data.List.DropRight
import PagePreview.Import.Library
import PagePreview.Proofs.Script.ImportedNames
import PagePreview.Proofs.Script.Lexemes
import PagePreview.Proofs.Script.WordImports
import PagePreview.Script.Pipeline

/-!
# The library that is added to a script

The import that is added is read from a text.  If the name in it can be bound
(`IsBindable`), then what is read is the import of a default under that name from
exactly the specifier that was asked for, whatever characters the specifier holds
(`exists_importStatement?`).  No other name is bound to a default by what is read
(`isBindable_of_importStatement?`).

Adding the library puts this one statement in front of the others, behind the
directives, and changes nothing else.  The statement binds the name of the
library, so no second one is ever added (`exists_addLibrary`).

More is taken than the names that can be bound, since the name is pasted into the
text and is taken if a script can be read from it.  Of the names that consist of
words and blanks these are an empty one, with which nothing is bound, and one with
the word `source` in front, with which the import belongs to another phase
(`addLibrary_words_iff`).
-/

namespace PagePreview.Import

open Script Text

/-- Whether a name can be what an import binds: a name in its plain spelling that is no keyword of
the language.  Words that are keywords in some places only can be bound. -/
structure IsBindable (name : String) : Prop where
  isName : isName name.toList = true
  not_reserved : name ∉ Parser.reservedWords
  ne_await : name ≠ "await"

instance (name : String) : Decidable (IsBindable name) :=
  decidable_of_iff (isName name.toList = true ∧ name ∉ Parser.reservedWords ∧ name ≠ "await")
    ⟨fun h => ⟨h.1, h.2.1, h.2.2⟩, fun h => ⟨h.1, h.2, h.3⟩⟩

/-! ## Reading it back -/

/-- The text of an import behind the name. -/
def sourceText (specifier : String) : List Char :=
  "from".toList ++ ' ' :: (Json.quote specifier.toList ++ [';'])

/-- The text of an import, part by part. -/
theorem toList_importText (name specifier : String) : (importText name specifier).toList =
    "import".toList ++ ' ' :: (name.toList ++ ' ' :: sourceText specifier) := by
  simp [importText, sourceText, Json.quoted]

theorem hashbang?_importText (name specifier : String) :
    Parser.hashbang? (importText name specifier).toList = none := by
  rw [toList_importText]
  rfl

/-- A word of the grammar in front of a blank. -/
theorem reads_word {w : String} (h : Script.isName w.toList = true) {cs : List Char}
    {ts : List Lexeme} (hRest : Reads (' ' :: cs) ts) :
    Reads (w.toList ++ ' ' :: cs) (.word w false :: ts) := by
  have hAll := Reads.name (endsName_of_isGap (by decide)) h hRest
  rwa [String.ofList_toList] at hAll

theorem reads_sourceText (specifier : String) :
    Reads (sourceText specifier) (Parser.sourceLexemes specifier) := by
  have hMark : Reads ([';'] ++ []) [.mark ";", .finish] :=
    .token (by decide) (by decide) (by decide +kernel) reads_nil
  have hText : Reads (Json.quote specifier.toList ++ [';'])
      [.string specifier false, .mark ";", .finish] := by
    have hLexeme := lexeme_quote specifier.toList [';']
    rw [String.ofList_toList] at hLexeme
    exact .token (by decide) (by decide) hLexeme hMark
  exact reads_word (by decide +kernel) hText.blank

/-- The text begins with the word `import`, whatever stands in the place of the name. -/
theorem reads_importText {name specifier : String} {ts : List Lexeme}
    (h : Reads (name.toList ++ ' ' :: sourceText specifier) ts) :
    Reads (importText name specifier).toList (.word "import" false :: ts) := by
  rw [toList_importText]
  exact reads_word (by decide +kernel) h.blank

theorem reads_importText_name {name : String} (h : isName name.toList = true)
    (specifier : String) : Reads (importText name specifier).toList
      (.word "import" false :: .word name false :: Parser.sourceLexemes specifier) :=
  reads_importText (reads_word h (reads_sourceText specifier).blank)

/-- What is imported is the first statement of what is read. -/
theorem importStatement?_eq (name specifier : String) : importStatement? name specifier =
    (parse? false (importText name specifier)).bind fun p => p.root.children.head? := by
  unfold importStatement?
  cases parse? false (importText name specifier) <;> rfl

theorem importStatement?_of_parse? {name specifier : String} {refused : Prop} [Decidable refused]
    {n : Node} {span : Span} {comments : List Comment}
    (h : parse? false (importText name specifier) =
      if refused then none else some ⟨.mk (.program none) span [n], comments⟩) :
    importStatement? name specifier = if refused then none else some n := by
  rw [importStatement?_eq, h]
  split <;> rfl

/-- **The import that is read binds the name to the default of the specifier**, whatever it is. -/
theorem exists_importStatement? {name : String} (h : IsBindable name) (specifier : String) :
    ∃ n, IsDefaultImport name specifier false n ∧ importStatement? name specifier = some n := by
  obtain ⟨n, span, comments, hDefault, hParse⟩ := Parser.parse?_of_reads
    (reads_importText_name h.isName specifier) (hashbang?_importText name specifier)
    h.not_reserved
  exact ⟨n, hDefault, by rw [importStatement?_of_parse? hParse, if_neg h.ne_await]⟩

/-- **Only a name that can be bound is bound by the import that is read**, although the text may be
read in another way. -/
theorem isBindable_of_importStatement? {name specifier : String} {n : Node}
    (hRead : importStatement? name specifier = some n) (hBinds : Parser.BindsDefault name n) :
    IsBindable name := by
  have hFirst := hashbang?_importText name specifier
  have hImport : Reads (importText name specifier).toList [.word "import" false] :=
    reads_importText fun _ _ => trivial
  rw [importStatement?_eq] at hRead
  obtain ⟨p, hParse, hHead⟩ := Option.bind_eq_some_iff.mp hRead
  obtain ⟨hName, hReserved⟩ :=
    Parser.namesIdentifier_of_parse? hParse hImport hFirst hHead name hBinds
  refine ⟨hName, hReserved, ?_⟩
  rintro rfl
  obtain ⟨n, span, comments, -, hNone⟩ :=
    Parser.parse?_of_reads (reads_importText_name hName specifier) hFirst hReserved
  rw [hParse] at hNone
  exact absurd hNone (by simp)

/-! ## In front of the other statements -/

/-- A result that is there, and what holds of it. -/
theorem exists_eq_ok {ε α : Type} {r : Except ε α} {P : α → Prop} [DecidablePred P]
    (h : (r.toOption.any fun a => decide (P a)) = true) : ∃ a, r = .ok a ∧ P a := by
  cases r with
  | error e => simp [Except.toOption] at h
  | ok a => exact ⟨a, rfl, by simpa [Except.toOption] using h⟩

/-- The directives of a script. -/
def directives (p : Program) : List Node := p.root.children.takeWhile isDirective

/-- What a script does: everything behind the directives. -/
def statements (p : Program) : List Node := p.root.children.dropWhile isDirective

@[simp] theorem directives_append_statements (p : Program) :
    directives p ++ statements p = p.root.children :=
  List.takeWhile_append_dropWhile

theorem isDirective_of_mem_directives {p : Program} {n : Node} (h : n ∈ directives p) :
    isDirective n = true :=
  List.mem_takeWhile_imp h

section

variable {name specifier : String} {lossy : Bool} {n : Node}

theorem not_isDirective_of_isDefaultImport (h : IsDefaultImport name specifier lossy n) :
    isDirective n = false := by
  obtain ⟨_, _, _, _, _, rfl⟩ := h
  rfl

theorem statementBinds_of_isDefaultImport (h : IsDefaultImport name specifier lossy n) :
    statementBinds name n = true := by
  obtain ⟨_, _, _, _, _, rfl⟩ := h
  simp [statementBinds, Node.items, Node.child, Node.children, Node.kind, bindsModule, Node.name?]

theorem children_prependStatement (n : Node) (p : Program) :
    (prependStatement n p).root.children = directives p ++ n :: statements p :=
  rfl

/-- What is in front tells which statement has been added. -/
theorem prependStatement_inj {m n : Node} {p : Program} :
    prependStatement m p = prependStatement n p ↔ m = n := by
  constructor
  · intro h
    have hChildren := congrArg (fun q : Program => q.root.children) h
    simp only [children_prependStatement] at hChildren
    exact (List.cons.inj (List.append_cancel_left hChildren)).1
  · rintro rfl
    rfl

theorem directives_prependStatement (h : isDirective n = false) (p : Program) :
    directives (prependStatement n p) = directives p := by
  have hAll : ∀ m ∈ directives p, isDirective m = true := fun _ => isDirective_of_mem_directives
  show (directives p ++ n :: statements p).takeWhile isDirective = directives p
  rw [List.takeWhile_append_of_pos hAll, List.takeWhile_cons_of_neg (by simp [h]),
    List.append_nil]

theorem statements_prependStatement (h : isDirective n = false) (p : Program) :
    statements (prependStatement n p) = n :: statements p := by
  have hAll : ∀ m ∈ directives p, isDirective m = true := fun _ => isDirective_of_mem_directives
  show (directives p ++ n :: statements p).dropWhile isDirective = n :: statements p
  rw [List.dropWhile_append_of_pos hAll, List.dropWhile_cons_of_neg (by simp [h])]

/-- A directive joins the others, and the statements stay as they are. -/
theorem statements_prependStatement_of_isDirective (h : isDirective n = true) (p : Program) :
    statements (prependStatement n p) = statements p := by
  have hAll : ∀ m ∈ directives p ++ [n], isDirective m = true := by
    intro m hm
    rcases List.mem_append.mp hm with hm | hm
    · exact isDirective_of_mem_directives hm
    · rwa [List.mem_singleton.mp hm]
  show (directives p ++ n :: statements p).dropWhile isDirective = statements p
  rw [List.append_cons, List.dropWhile_append_of_pos hAll]
  exact List.dropWhile_idempotent _ _

theorem needsLibrary_prependStatement {ui : UiLibrary} (h : statementBinds ui.global n = true)
    (p : Program) : needsLibrary ui (prependStatement n p) = false := by
  have hBinds : bindsName ui.global (prependStatement n p) = true := by
    rw [bindsName, children_prependStatement, List.any_append, List.any_cons, h, Bool.true_or,
      Bool.or_true]
  rw [needsLibrary, hBinds, Bool.not_true, Bool.and_false]

end

/-- The library can be added where its import can be read. -/
theorem addLibrary_eq_ok_iff {ui : UiLibrary} {p q : Program} : addLibrary ui p = .ok q ↔
    ∃ added, importStatement? ui.global (librarySpecifier ui p) = some added ∧
      prependStatement added p = q := by
  unfold addLibrary
  cases importStatement? ui.global (librarySpecifier ui p) with
  | none => simp
  | some added => simp

/-- Nothing is added to a script that does not need the library. -/
theorem supply_of_not_needsLibrary {t : Target} {p : Program}
    (h : needsLibrary t.library p = false) (mode : Mode) :
    supply t mode p = .ok { program := p } := by
  rw [supply, h, Bool.and_false, if_neg (by decide)]

/-- **The library is added once.** Any script can be given the import of a name that can be bound:
one statement that binds the name to the default of the library's specifier comes in front of the
old ones. The script has no need of the library then, and is left as it is. -/
theorem exists_addLibrary (ui : UiLibrary) (h : IsBindable ui.global) (p : Program) :
    ∃ q added, addLibrary ui p = .ok q ∧
      IsDefaultImport ui.global (librarySpecifier ui p) false added ∧
      directives q = directives p ∧ statements q = added :: statements p ∧
      q.root.kind = p.root.kind ∧ q.comments = p.comments ∧
      needsLibrary ui q = false ∧
      ∀ t : Target, t.library = ui → supply t .document q = .ok { program := q } := by
  obtain ⟨added, hDefault, hRead⟩ := exists_importStatement? h (librarySpecifier ui p)
  have hPlain := not_isDirective_of_isDefaultImport hDefault
  have hNeeds := needsLibrary_prependStatement (statementBinds_of_isDefaultImport hDefault) p
  have hAdded : addLibrary ui p = .ok (prependStatement added p) :=
    addLibrary_eq_ok_iff.mpr ⟨added, hRead, rfl⟩
  refine ⟨prependStatement added p, added, hAdded, hDefault, ?_, ?_, ?_, ?_, ?_, ?_⟩
  · exact directives_prependStatement hPlain p
  · exact statements_prependStatement hPlain p
  · rfl
  · rfl
  · exact hNeeds
  · rintro t rfl
    exact supply_of_not_needsLibrary hNeeds .document

/-- A script that imports a part of the library from a place of its own choice, with characters in
its address that a text in quotes cannot hold as they are. -/
theorem exists_addLibrary_quoted :
    let script : Program := ⟨.mk (.program none) {}
      [.mk (.directive "use strict") {} [],
        .mk (.importFrom false none) {}
          [.mk .group {} [], .mk (.string "https://a.example/\"b\\c\u2028/react@19" false) {} [],
            .absent]], []⟩
    IsBindable ({} : UiLibrary).global ∧
    ∃ q added, addLibrary {} script = .ok q ∧
      IsDefaultImport "React" (librarySpecifier {} script) false added ∧
      directives q = directives script ∧ statements q = added :: statements script ∧
      q.root.kind = script.root.kind ∧ q.comments = script.comments ∧
      needsLibrary {} q = false ∧
      ∀ t : Target, t.library = {} → supply t .document q = .ok { program := q } :=
  ⟨by decide +kernel, exists_addLibrary {} (by decide +kernel) _⟩

/-! ## Which names are taken -/

/-- The words of a text. -/
def words (s : String) : List String := (wordsOf s.toList).map String.ofList

/-- Whether words are taken for the name of a library: none, a name that can be bound, and one
behind the word `source`. -/
def AreTaken : List String → Prop
  | [] => True
  | [name] => IsBindable name
  | [front, name] => front = "source" ∧ IsBindable name
  | _ => False

instance : DecidablePred AreTaken := fun ws =>
  match ws with
  | [] => .isTrue trivial
  | [name] => inferInstanceAs (Decidable (IsBindable name))
  | [front, name] => inferInstanceAs (Decidable (front = "source" ∧ IsBindable name))
  | _ :: _ :: _ :: _ => .isFalse id

/-- Whether a statement is the import that words in the place of the name stand for. -/
def IsImportOf (specifier : String) (n : Node) : List String → Prop
  | [] => IsBareImport specifier false n
  | [name] => IsDefaultImport name specifier false n
  | [_, name] => IsPhaseImport (some "source") name specifier false n
  | _ => False

/-! ## Reading the words -/

theorem isBindable_ofList_iff (w : List Char) : IsBindable (String.ofList w) ↔
    isName w = true ∧ String.ofList w ∉ Parser.reservedWords ∧ String.ofList w ≠ "await" := by
  constructor
  · rintro ⟨hName, hReserved, hAwait⟩
    rw [String.toList_ofList] at hName
    exact ⟨hName, hReserved, hAwait⟩
  · rintro ⟨hName, hReserved, hAwait⟩
    exact ⟨by rwa [String.toList_ofList], hReserved, hAwait⟩

/-- The words that are taken are those that an import can name, without the operator. -/
theorem areTaken_map_iff (ws : List (List Char)) : AreTaken (ws.map String.ofList) ↔
    Parser.AreImported ws ∧ "await" ∉ ws.map String.ofList := by
  constructor
  · intro h
    match ws with
    | [] => exact ⟨.nothing, by simp⟩
    | [w] =>
      obtain ⟨hName, hReserved, hAwait⟩ := (isBindable_ofList_iff w).mp h
      exact ⟨.default hName hReserved, by simpa using hAwait.symm⟩
    | [v, w] =>
      obtain ⟨hSource, hBindable⟩ := h
      obtain ⟨hName, hReserved, hAwait⟩ := (isBindable_ofList_iff w).mp hBindable
      obtain rfl : v = "source".toList := by rw [← hSource, String.toList_ofList]
      exact ⟨.source hName hReserved, by simpa using hAwait.symm⟩
    | _ :: _ :: _ :: _ => exact h.elim
  · rintro ⟨hImported, hAwait⟩
    cases hImported with
    | nothing => trivial
    | default hName hReserved =>
      exact (isBindable_ofList_iff _).mpr ⟨hName, hReserved, by simpa [eq_comm] using hAwait⟩
    | source hName hReserved =>
      refine ⟨String.ofList_toList, (isBindable_ofList_iff _).mpr ⟨hName, hReserved, ?_⟩⟩
      simpa [eq_comm] using hAwait

section

variable {name specifier : String} {ws : List (List Char)}

/-- Words that an import can name are read, unless one of them is an operator. -/
theorem exists_importStatement?_of_areImported (h : Parser.AreImported ws)
    (hReads : Reads (importText name specifier).toList (.word "import" false ::
      (ws.map (fun w => .word (String.ofList w) false) ++ Parser.sourceLexemes specifier))) :
    ∃ n, IsImportOf specifier n (ws.map String.ofList) ∧ importStatement? name specifier =
      if "await" ∈ ws.map String.ofList then none else some n := by
  have hFirst := hashbang?_importText name specifier
  cases h with
  | nothing =>
    obtain ⟨n, span, comments, hBare, hParse⟩ := Parser.parse?_of_reads_bare hReads hFirst
    refine ⟨n, hBare, ?_⟩
    rw [importStatement?_eq, hParse, if_neg (by simp)]
    rfl
  | default hName hReserved =>
    obtain ⟨n, span, comments, hDefault, hParse⟩ :=
      Parser.parse?_of_reads hReads hFirst hReserved
    refine ⟨n, hDefault, ?_⟩
    rw [importStatement?_of_parse? hParse]
    exact if_congr (by simp [eq_comm]) rfl rfl
  | source hName hReserved =>
    obtain ⟨n, span, comments, hPhase, hParse⟩ :=
      Parser.parse?_of_reads_source hReads hFirst hReserved
    refine ⟨n, hPhase, ?_⟩
    rw [importStatement?_of_parse? hParse]
    exact if_congr (by simp [eq_comm]) rfl rfl

/-- What a text of words in the place of the name is read as. -/
theorem reads_importText_words (hPlain : IsPlain name.toList) (specifier : String) :
    ∃ ts, AreRead (Parser.sourceLexemes specifier) (wordsOf name.toList) ts ∧
      Reads (importText name specifier).toList (.word "import" false :: ts) := by
  obtain ⟨ts, hWords, hReads⟩ :=
    exists_reads_words (by decide) hPlain (reads_sourceText specifier).blank
  exact ⟨ts, hWords, reads_importText hReads⟩

theorem exists_importStatement?_words (hPlain : IsPlain name.toList) (specifier : String)
    (h : AreTaken (words name)) :
    ∃ n, IsImportOf specifier n (words name) ∧ importStatement? name specifier = some n := by
  obtain ⟨hImported, hAwait⟩ := (areTaken_map_iff _).mp h
  obtain ⟨ts, hWords, hReads⟩ := reads_importText_words hPlain specifier
  rw [eq_append_of_areRead hWords hImported.forall_isName] at hReads
  obtain ⟨n, hForm, hRead⟩ := exists_importStatement?_of_areImported hImported hReads
  exact ⟨n, hForm, by rw [hRead, if_neg hAwait]⟩

theorem areTaken_words_of_importStatement? {n : Node} (hPlain : IsPlain name.toList)
    (h : importStatement? name specifier = some n) : AreTaken (words name) := by
  obtain ⟨ts, hWords, hReads⟩ := reads_importText_words hPlain specifier
  have hBoth := h
  rw [importStatement?_eq] at hBoth
  obtain ⟨p, hParse, hHead⟩ := Option.bind_eq_some_iff.mp hBoth
  have hImported := Parser.areImported_of_parse? hWords hReads
    (hashbang?_importText name specifier) hParse hHead
  refine (areTaken_map_iff _).mpr ⟨hImported, fun hAwait => ?_⟩
  rw [eq_append_of_areRead hWords hImported.forall_isName] at hReads
  obtain ⟨n, -, hNone⟩ := exists_importStatement?_of_areImported hImported hReads
  rw [h, if_pos hAwait] at hNone
  exact absurd hNone (by simp)

end

/-! ## Adding the library -/

theorem addLibrary_eq_error_iff {ui : UiLibrary} {p : Program} {fault : Fault} :
    addLibrary ui p = .error fault ↔
      importStatement? ui.global (librarySpecifier ui p) = none ∧
        fault = .inject ("`" ++ ui.global ++ "` is not a valid import binding") := by
  unfold addLibrary
  cases importStatement? ui.global (librarySpecifier ui p) with
  | none => simp [eq_comm]
  | some added => simp

/-- A library is bound under its name where the name can be bound, whatever the script is. -/
theorem isBindable_iff_addLibrary (ui : UiLibrary) (p : Program) : IsBindable ui.global ↔
    ∃ added, addLibrary ui p = .ok (prependStatement added p) ∧
      Parser.BindsDefault ui.global added := by
  constructor
  · intro h
    obtain ⟨added, hDefault, hRead⟩ := exists_importStatement? h (librarySpecifier ui p)
    exact ⟨added, addLibrary_eq_ok_iff.mpr ⟨added, hRead, rfl⟩,
      Parser.bindsDefault_of_isDefaultImport hDefault⟩
  · rintro ⟨added, hAdd, hBinds⟩
    obtain ⟨other, hRead, hSame⟩ := addLibrary_eq_ok_iff.mp hAdd
    rw [prependStatement_inj] at hSame
    exact isBindable_of_importStatement? hRead (hSame ▸ hBinds)

/-- **Which names of a library are taken.** The library is imported as a default under its name if
the name can be bound, and under no other name. A name of words and blanks is refused unless there
is no word in it, one that can be bound, or one that can be bound behind the word `source`, and
these are read as an import of nothing, of a default, and of a default in another phase. -/
theorem addLibrary_words_iff (ui : UiLibrary) (p : Program) :
    (IsBindable ui.global ↔ ∃ added, addLibrary ui p = .ok (prependStatement added p) ∧
      Parser.BindsDefault ui.global added) ∧
    (IsPlain ui.global.toList →
      (addLibrary ui p =
          .error (.inject ("`" ++ ui.global ++ "` is not a valid import binding")) ↔
        ¬ AreTaken (words ui.global)) ∧
      (AreTaken (words ui.global) →
        ∃ added, addLibrary ui p = .ok (prependStatement added p) ∧
          IsImportOf (librarySpecifier ui p) added (words ui.global))) := by
  refine ⟨isBindable_iff_addLibrary ui p, fun hPlain => ⟨?_, ?_⟩⟩
  · rw [addLibrary_eq_error_iff, and_iff_left rfl]
    constructor
    · intro hNone hTaken
      obtain ⟨n, -, hSome⟩ := exists_importStatement?_words hPlain (librarySpecifier ui p) hTaken
      rw [hNone] at hSome
      exact absurd hSome (by simp)
    · intro hRefused
      cases hRead : importStatement? ui.global (librarySpecifier ui p) with
      | none => rfl
      | some n => exact absurd (areTaken_words_of_importStatement? hPlain hRead) hRefused
  · intro hTaken
    obtain ⟨added, hForm, hRead⟩ :=
      exists_importStatement?_words hPlain (librarySpecifier ui p) hTaken
    exact ⟨added, addLibrary_eq_ok_iff.mpr ⟨added, hRead, rfl⟩, hForm⟩

-- Blanks around a name are not a part of it.
example : AreTaken (words " pad ") ∧ ¬ AreTaken (words "a b") ∧ ¬ AreTaken (words "await") := by
  decide +kernel

/-- A name behind the word `source`, with which the import that is added belongs to a phase. -/
theorem exists_addLibrary_source_word :
    let ui : UiLibrary := { package := "preact", global := "source h" }
    let script : Program := ⟨.mk (.program none) {} [.mk (.directive "use strict") {} []], []⟩
    IsPlain ui.global.toList ∧ AreTaken (words ui.global) ∧
    ∃ added, addLibrary ui script = .ok (prependStatement added script) ∧
      IsPhaseImport (some "source") "h" "preact" false added := by
  intro ui script
  have hPlain : IsPlain ui.global.toList := by decide +kernel
  have hTaken : AreTaken (words ui.global) := by decide +kernel
  have hTwo : words ui.global = ["source", "h"] := by decide +kernel
  have hPackage : librarySpecifier ui script = "preact" := by decide +kernel
  obtain ⟨-, hWords⟩ := addLibrary_words_iff ui script
  obtain ⟨added, hAdd, hForm⟩ := (hWords hPlain).2 hTaken
  rw [hTwo, hPackage] at hForm
  exact ⟨hPlain, hTaken, added, hAdd, hForm⟩

/-- A name in braces is taken, and what is added binds no default. -/
theorem exists_addLibrary_braced :
    let ui : UiLibrary := { package := "preact", global := "\x7b h \x7d" }
    (∀ name, words ui.global ≠ [name]) ∧
    ∃ p added, read "const el = <div/>;" = .ok p ∧
      addLibrary ui p = .ok (prependStatement added p) ∧
      ∀ name, ¬ Parser.BindsDefault name added := by
  intro ui
  have hThree : (words ui.global).length = 3 := by decide +kernel
  refine ⟨fun name hOne => ?_, ?_⟩
  · rw [hOne] at hThree
    exact absurd hThree (by simp)
  · obtain ⟨p, hRead, hSome⟩ : ∃ p, read "const el = <div/>;" = .ok p ∧
        ((importStatement? ui.global (librarySpecifier ui p)).any fun n =>
          Parser.kindAt? n [0, 0] == some (.importNamed false)) = true :=
      exists_eq_ok (by decide +kernel)
    obtain ⟨added, hAdded, hNamed⟩ := (Option.any_eq_true _ _).mp hSome
    refine ⟨p, added, hRead, addLibrary_eq_ok_iff.mpr ⟨added, hAdded, rfl⟩, ?_⟩
    intro name hBinds
    rw [hBinds.isDefault] at hNamed
    exact absurd hNamed (by decide)

end PagePreview.Import
